/-
  PicoosLwip.Dhcps.ReadBounds — which requests the server reads past the end.

  Nothing in dhcps.c compares an offset into the request with `p->len`, except
  the copy in `newResp`.  So a call stays inside the payload if the payload
  reaches to the type byte and, where the option scan is entered, holds an END
  that closes its options.  `reads_inside_iff` says that this is exact: the
  calls that stay inside are these and no others, and they all return.
-/
import PicoosLwip.Dhcps.Requests

namespace PicoosLwip.Dhcps

open PicoosLwip.Framework

/-! ## §1. The events of a call. -/

@[simp] theorem readsBelow_nil (n : Nat) : ReadsBelow n [] := fun _ he => absurd he List.not_mem_nil

@[simp] theorem readsBelow_cons {n : Nat} {e : Event} {es : List Event} :
    ReadsBelow n (e :: es) ↔ (∀ k ∈ e.requestOffsets, k < n) ∧ ReadsBelow n es :=
  List.forall_mem_cons

@[simp] theorem readsBelow_append {n : Nat} {es es' : List Event} :
    ReadsBelow n (es ++ es') ↔ ReadsBelow n es ∧ ReadsBelow n es' :=
  List.forall_mem_append

/-- A larger bound. -/
theorem ReadsBelow.mono {n n' : Nat} {es : List Event} (h : ReadsBelow n es) (hle : n ≤ n') :
    ReadsBelow n' es := by
  intro e he k hk
  have := h e he k hk
  omega

/-- A handler's entry reads the header and the first option. -/
theorem readsBelow_enterEvents {n : Nat} (h : Handler) (hn : ofsOptions + 3 ≤ n) :
    ReadsBelow n (enterEvents h) := by
  have hofs := ofs_values
  intro e he k hk
  simp only [enterEvents, List.mem_cons, List.not_mem_nil, or_false] at he
  rcases he with rfl | rfl | rfl
  · rw [Event.requestOffsets, List.mem_range'_1] at hk
    omega
  · exact absurd hk List.not_mem_nil
  · rw [Event.requestOffsets, List.mem_range'_1] at hk
    omega

/-- `newResp` bounds its copy by `p->len`. -/
theorem readsBelow_newRespEvents (cfg : Config) (p : Pbuf) (b : List UInt8) :
    ReadsBelow p.len (newRespEvents cfg p b) := by
  intro e he k hk
  simp only [newRespEvents, List.mem_cons, List.not_mem_nil, or_false] at he
  rcases he with rfl | rfl | rfl | rfl | rfl | rfl
  case inr.inl =>
    rw [Event.requestOffsets, List.mem_range'_1] at hk
    omega
  all_goals exact absurd hk List.not_mem_nil

/-- Without a reply nothing more is read. -/
theorem readsBelow_noReplyEvents (n : Nat) (rp : Option (List UInt8)) :
    ReadsBelow n (noReplyEvents rp) := by
  cases rp <;> simp [noReplyEvents, Event.requestOffsets]

/-- The scan of options that the payload closes. -/
theorem readsBelow_scan {p : Pbuf} (h : Closed (p.payload.drop ofsOptions)) (s : Server) :
    ∃ es a, p.scan s = ⟨es, s, .ok a⟩ ∧ ReadsBelow p.len es := by
  obtain ⟨ts, hts⟩ : ∃ ts, p.HasOptions ts := h
  exact ⟨_, _, hts.scan s, (scanReads_below ts ofsOptions).mono hts.lt_len⟩

/-! ## §2. Where the scan is entered. -/

/-- The call reaches the option scan: a REQUEST with a slot and a reply buffer
of full size. -/
def EntersScan (cfg : Config) (s : Server) (d : Datagram) : Prop :=
  d.p.payload[ofsOptions + 2]? = some DHCPREQUEST
    ∧ (∃ m, d.p.chaddr = some m ∧ SlotFor m s.leases)
    ∧ (∃ b, d.rp = some b ∧ cfg.msgSize ≤ b.length)

/-- The payload covers the type byte, and closes the options that are scanned. -/
def CoversReads (cfg : Config) (s : Server) (d : Datagram) : Prop :=
  ofsOptions + 3 ≤ d.p.len ∧ (EntersScan cfg s d → Closed (d.p.payload.drop ofsOptions))

section Scan

variable {cfg : Config} {d : Datagram} {s : Server}

/-- Only a REQUEST is scanned. -/
theorem EntersScan.handler (h : EntersScan cfg s d) : d.p.handler = some .request := by
  have hlt := (List.getElem?_eq_some_iff.mp h.1).1
  rw [Pbuf.handler_eq_request]
  unfold Pbuf.typeByte Pbuf.mem
  rw [List.getElem?_append_left hlt, h.1]

/-- A REQUEST with a slot and a buffer enters the scan. -/
theorem entersScan_of_request {m : EthAddr} {addr : Ip4Addr} {leases : List Lease}
    {b : List UInt8} (hlen : ofsOptions + 3 ≤ d.p.len) (hh : d.p.handler = some .request)
    (hm : d.p.chaddr = some m) (ha : allocateAddr m s.leases = some (addr, leases))
    (hb : replyBuf cfg d.rp = some b) : EntersScan cfg s d := by
  refine ⟨?_, ⟨m, hm, allocateAddr_isSome_iff.mp ⟨addr, leases, ha⟩⟩, ⟨b, replyBuf_eq_some hb⟩⟩
  have ht := Pbuf.handler_eq_request.mp hh
  unfold Pbuf.typeByte Pbuf.mem at ht
  rwa [List.getElem?_append_left (by unfold Pbuf.len at hlen; omega)] at ht

/-- Every call reads the type byte. -/
theorem le_of_readsBelow {n : Nat} (h : ReadsBelow n (dhcpRecv cfg d s).events) :
    ofsOptions + 3 ≤ n := by
  have hread : Event.read .request (ofsOptions + 2) 1 ∈ (dhcpRecv cfg d s).events := by
    have hcase := dhcpRecv_cases cfg d s
    generalize dhcpRecv cfg d s = o at hcase
    cases hcase <;> simp [enterEvents]
  have hlast := h _ hread (ofsOptions + 2) (by simp [Event.requestOffsets])
  omega

/-- **A call that stays inside has scanned closed options**, if it scans. -/
theorem closed_of_readsBelow (hscan : EntersScan cfg s d)
    (h : ReadsBelow d.p.len (dhcpRecv cfg d s).events) :
    Closed (d.p.payload.drop ofsOptions) := by
  have hfuel : d.p.len - ofsOptions < scanFuel d.p := by
    have := d.p.len_le_mem
    unfold scanFuel
    omega
  have hinside : ∀ {s' : Server} {es : List Event} {r : Except Fault Ip4Addr},
      d.p.scan s' = ⟨es, s', r⟩ → ReadsBelow d.p.len es →
      Closed (d.p.payload.drop ofsOptions) := by
    intro s' es r hs hes
    apply closed_of_scan_in d.p s' (scanFuel d.p) ofsOptions anyAddr hfuel
    unfold Pbuf.scan at hs
    rwa [hs]
  obtain ⟨-, ⟨m, hm, hslot⟩, b, hrp, hb⟩ := id hscan
  obtain ⟨addr, leases, ha⟩ := allocateAddr_isSome_iff.mpr hslot
  have hh := hscan.handler
  have hcase := dhcpRecv_cases cfg d s
  generalize dhcpRecv cfg d s = o at hcase h
  -- a call that meets `EntersScan` can only end in, or behind, the scan
  cases hcase with
  | noType ht => simp [Pbuf.handler, ht] at hh
  | ignored t ht hh' => simp [hh'] at hh
  | noChaddr h' hh' hm' => simp [hm'] at hm
  | exhausted h' m' hh' hm' ha' =>
      obtain rfl := Option.some.inj (hm'.symm.trans hm)
      simp [ha'] at ha
  | noReply h' m' addr' leases' hh' hm' ha' hb' =>
      rw [hrp, replyBuf_of_le hb] at hb'
      exact absurd hb' (by simp)
  | offer m' addr' leases' b' hh' hm' ha' hb' => simp [hh'] at hh
  | scanFault m' addr' leases' b' es e hh' hm' ha' hb' hscan' =>
      exact hinside hscan' h.right
  | ack m' addr' leases' b' mac es hh' hm' ha' hb' hscan' hmac =>
      exact hinside hscan' h.left.left.right
  | nak m' addr' reqAddr leases' b' es hh' hm' ha' hb' hscan' hne =>
      exact hinside hscan' h.left.left.right

/-- **Exactly the calls that read inside the payload**; each of them returns. -/
theorem reads_inside_iff (cfg : Config) (d : Datagram) (s : Server) :
    (ReadsBelow d.p.len (dhcpRecv cfg d s).events ∧ (dhcpRecv cfg d s).result = .ok ())
      ↔ CoversReads cfg s d := by
  constructor
  · rintro ⟨hreads, -⟩
    exact ⟨le_of_readsBelow hreads, fun hscan => closed_of_readsBelow hscan hreads⟩
  · rintro ⟨hlen, hclosed⟩
    have hofs := ofs_values
    have hmem := d.p.len_le_mem
    -- what a scan does, where it is entered
    have hscans : ∀ {m : EthAddr} {addr : Ip4Addr} {leases : List Lease} {b : List UInt8}
        {s' s'' : Server} {es : List Event} {r : Except Fault Ip4Addr},
        d.p.handler = some .request → d.p.chaddr = some m →
        allocateAddr m s.leases = some (addr, leases) → replyBuf cfg d.rp = some b →
        d.p.scan s' = ⟨es, s'', r⟩ → ReadsBelow d.p.len es ∧ ∃ a, r = .ok a := by
      intro m addr leases b s' s'' es r hh hm ha hb hscan
      obtain ⟨es', a, hrun, hbelow⟩ :=
        readsBelow_scan (hclosed (entersScan_of_request hlen hh hm ha hb)) s'
      rw [hscan] at hrun
      obtain ⟨rfl, -, rfl⟩ := Outcome.mk.inj hrun
      exact ⟨hbelow, a, rfl⟩
    have henter := fun h => readsBelow_enterEvents h hlen
    have hresp := fun b => readsBelow_newRespEvents cfg d.p b
    have hcase := dhcpRecv_cases cfg d s
    generalize dhcpRecv cfg d s = o at hcase
    cases hcase with
    | noType ht =>
        -- the type byte lies inside the payload
        unfold Pbuf.typeByte at ht
        rw [List.getElem?_eq_none_iff] at ht
        omega
    | ignored t ht hh =>
        refine ⟨?_, rfl⟩
        simp [Event.requestOffsets]
        omega
    | noChaddr h hh hm =>
        obtain ⟨m, hm', -⟩ := peekVec_of_le (show ofsChaddr + 6 ≤ d.p.mem.length by omega)
        rw [Pbuf.chaddr, hm'] at hm
        exact absurd hm (by simp)
    | exhausted h m hh hm ha => exact ⟨by simp [henter h, Event.requestOffsets], rfl⟩
    | noReply h m addr leases hh hm ha hb =>
        exact ⟨by simp [henter h, readsBelow_noReplyEvents, Event.requestOffsets], rfl⟩
    | offer m addr leases b hh hm ha hb =>
        exact ⟨by simp [henter, hresp, Event.requestOffsets], rfl⟩
    | scanFault m addr leases b es e hh hm ha hb hscan =>
        obtain ⟨-, a, ha'⟩ := hscans hh hm ha hb hscan
        exact absurd ha' (by simp)
    | ack m addr leases b mac es hh hm ha hb hscan hmac =>
        have hbelow := (hscans hh hm ha hb hscan).1
        exact ⟨by simp [henter, hresp, hbelow, Event.requestOffsets], rfl⟩
    | nak m addr reqAddr leases b es hh hm ha hb hscan hne =>
        have hbelow := (hscans hh hm ha hb hscan).1
        exact ⟨by simp [henter, hresp, hbelow, Event.requestOffsets], rfl⟩

end Scan

/-- A REQUEST whose options end with the payload: the scan goes on behind it. -/
theorem unterminated_options_read_past_end :
    ¬ ReadsBelow (clientMsg anyAddr macA [OPT_MSGTYPE, 1, DHCPREQUEST]).len
        (dhcpRecv sampleConfig ⟨clientMsg anyAddr macA [OPT_MSGTYPE, 1, DHCPREQUEST], sampleNetif,
          some (zeros sampleConfig.msgSize)⟩ (sampleServer [])).events := by
  intro hreads
  have hopts := clientMsg_options anyAddr macA [OPT_MSGTYPE, 1, DHCPREQUEST]
  have hscan : EntersScan sampleConfig (sampleServer [])
      ⟨clientMsg anyAddr macA [OPT_MSGTYPE, 1, DHCPREQUEST], sampleNetif,
        some (zeros sampleConfig.msgSize)⟩ := by
    refine ⟨?_, ⟨macA, clientMsg_chaddr _ macA _, by decide⟩,
      ⟨_, rfl, Nat.le_of_eq (zeros_length _).symm⟩⟩
    have hget := congrArg (fun bs => bs[2]?) hopts
    simpa using hget
  obtain ⟨ts, rest, hts⟩ := closed_of_readsBelow hscan hreads
  -- no byte of the field is END
  have hend : OPT_END ∈ [OPT_MSGTYPE, 1, DHCPREQUEST] := by
    rw [← hopts, hts]
    simp
  exact absurd hend (by decide)

end PicoosLwip.Dhcps
