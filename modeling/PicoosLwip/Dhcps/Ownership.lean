/-
  PicoosLwip.Dhcps.Ownership — who frees which buffer, and when.

  A call owns the request from the start and the reply from `pbuf_alloc` on;
  `udp_sendto_if` keeps neither.  Every path frees each of them once.  But the
  OFFER and the ACK are printed after the reply was freed, and the line that is
  printed takes `chaddr` from it.

  Main results:
    * `keepsBuffers_iff`    — the calls that use nothing they have freed;
    * `offer_uses_freed_reply` — one that does.
-/
import PicoosLwip.Framework.Ownership
import PicoosLwip.Dhcps.ArpAgreement
import PicoosLwip.Dhcps.Deliveries

namespace PicoosLwip.Dhcps

open PicoosLwip.Framework

/-! ## §1. The life of the two buffers. -/

/-- What a buffer is acquired by. -/
def Event.acquired : Event → Option Buf
  | .alloc (some _) => some .reply
  | _ => none

/-- `udp_sendto_if` reads the reply. -/
def Event.used : Event → Option Buf
  | .read b _ _ => some b
  | .write b _ _ => some b
  | .send _ _ _ _ => some .reply
  | _ => none

/-- What it is released by. -/
def Event.released : Event → Option Buf
  | .free b => some b
  | _ => none

/-- The two buffers of a call. -/
abbrev bufUsage : Usage Event Buf := ⟨Event.acquired, Event.used, Event.released⟩

/-- A call that returns has freed the request once, and the reply once if there was
one; no call uses a buffer that it has freed. -/
structure KeepsBuffers (o : Outcome Fault Server Event Unit) : Prop where
  request : o.result = .ok () → bufUsage.releases .request o.events = 1
  reply : o.result = .ok () →
    bufUsage.releases .reply o.events = bufUsage.acquisitions .reply o.events
  oneReply : bufUsage.acquisitions .reply o.events ≤ 1
  noUse : bufUsage.NoUseAfterRelease o.events

/-- Nothing is released at the entry of a handler. -/
theorem keepsAll_enterEvents (h : Handler) : bufUsage.KeepsAll (enterEvents h) := by
  intro e he
  simp only [enterEvents, List.mem_cons, List.not_mem_nil, or_false] at he
  rcases he with rfl | rfl | rfl <;> rfl

/-- Nothing is released while the reply is made. -/
theorem keepsAll_newRespEvents (cfg : Config) (p : Pbuf) (b : List UInt8) :
    bufUsage.KeepsAll (newRespEvents cfg p b) := by
  intro e he
  simp only [newRespEvents, List.mem_cons, List.not_mem_nil, or_false] at he
  rcases he with rfl | rfl | rfl | rfl | rfl | rfl <;> rfl

section Scan

variable {p : Pbuf} {s s' : Server} {es : List Event} {r : Except Fault Ip4Addr}

/-- Nor during the scan. -/
theorem keepsAll_scan (h : p.scan s = ⟨es, s', r⟩) : bufUsage.KeepsAll es := by
  intro e he
  obtain ⟨k, n, rfl⟩ := scan_reads h e he
  rfl

/-- The scan allocates nothing. -/
theorem acquisitions_scan (h : p.scan s = ⟨es, s', r⟩) : bufUsage.acquisitions .reply es = 0 := by
  unfold Usage.acquisitions
  rw [List.countP_eq_zero]
  intro e he
  obtain ⟨k, n, rfl⟩ := scan_reads h e he
  exact Bool.false_ne_true

/-- A REQUEST up to the end of its scan: the reply is there, and nothing is freed. -/
theorem keepsAll_scanned (cfg : Config) (b : List UInt8) (h : p.scan s = ⟨es, s', r⟩) :
    bufUsage.KeepsAll (enterEvents .request ++ newRespEvents cfg p b ++ es) :=
  ((keepsAll_enterEvents _).append (keepsAll_newRespEvents cfg p b)).append (keepsAll_scan h)

/-- Up to the end of the scan there is one allocation. -/
theorem acquisitions_scanned (cfg : Config) (b : List UInt8) (h : p.scan s = ⟨es, s', r⟩) :
    bufUsage.acquisitions .reply (enterEvents .request ++ newRespEvents cfg p b ++ es) = 1 := by
  rw [Usage.acquisitions_append, acquisitions_scan h]
  rfl

end Scan

/-! ## §2. The branches that answer. -/

section Calls

variable {cfg : Config} {s : Server} {d : Datagram} {h : Handler} {m : EthAddr} {addr : Ip4Addr}
  {leases : List Lease} {b : List UInt8}

/-- An ACK needs a reply. -/
theorem TakesAck.findsReply (hack : TakesAck cfg s d m addr) : FindsReply cfg s d .request := by
  obtain ⟨leases, ha⟩ := hack.slot
  exact ⟨hack.handler, ⟨m, hack.client, allocateAddr_isSome_iff.mp ⟨addr, leases, ha⟩⟩, hack.buffer⟩

/-- **The OFFER is printed from a reply that was freed.** -/
theorem FindsReply.uses_freed (hrep : FindsReply cfg s d .discover) :
    ¬ KeepsBuffers (dhcpRecv cfg d s) := by
  obtain ⟨m, hm, hslot⟩ := hrep.client
  obtain ⟨addr, leases, ha⟩ := allocateAddr_isSome_iff.mpr hslot
  obtain ⟨b, hrp, hsize⟩ := hrep.buffer
  have hb : replyBuf cfg d.rp = some b := by rw [hrp, replyBuf_of_le hsize]
  rw [dhcpRecv_of_handler hrep.handler, handle_discover hm ha hb]
  intro hkeeps
  have hprint := hkeeps.noUse.right.left.right
  simp [Usage.noUseAfterRelease_cons, Event.released, Event.used] at hprint

/-- A REQUEST that takes the ACK branch has scanned its way to the slot's address. -/
theorem TakesAck.scan (hack : TakesAck cfg s d m addr) (s' : Server) :
    ∃ es, d.p.scan s' = ⟨es, s', .ok addr⟩ := by
  obtain ⟨ts, rest, hts, haddr⟩ := hack.asks
  refine ⟨scanReads ofsOptions ts, ?_⟩
  rw [← haddr]
  exact scan_closed hts s'

/-- A scan that faults leads to no ACK. -/
theorem not_takesAck_of_scanFault {s' : Server} {es : List Event} {e : Fault}
    (hscan : d.p.scan s' = ⟨es, s', .error e⟩) : ¬ TakesAck cfg s d m addr := by
  intro hack
  obtain ⟨es', hscan'⟩ := hack.scan s'
  rw [hscan] at hscan'
  exact absurd (Outcome.mk.inj hscan').2.2 (by simp)

/-- Nor does one that finds another address than the slot's. -/
theorem not_takesAck_of_ne {s' : Server} {es : List Event} {m' : EthAddr}
    {addr' reqAddr : Ip4Addr} (hm : d.p.chaddr = some m)
    (ha : allocateAddr m s.leases = some (addr, leases))
    (hscan : d.p.scan s' = ⟨es, s', .ok reqAddr⟩) (hne : reqAddr ≠ addr) :
    ¬ TakesAck cfg s d m' addr' := by
  intro hack
  obtain ⟨es', hscan'⟩ := hack.scan s'
  obtain ⟨leases', ha'⟩ := hack.slot
  obtain rfl : m = m' := Option.some.inj (hm.symm.trans hack.client)
  rw [hscan] at hscan'
  rw [ha] at ha'
  have hreq : reqAddr = addr' := Except.ok.inj (Outcome.mk.inj hscan').2.2
  have hslot : addr = addr' := (Prod.mk.inj (Option.some.inj ha')).1
  exact hne (hreq.trans hslot.symm)

end Calls

/-! ## §3. The calls that keep to it. -/

section Paths

variable {front tail : List Event} {s' : Server}

/-- A call that faults before it has freed anything. -/
theorem keepsBuffers_fault (hkeeps : bufUsage.KeepsAll front)
    (hone : bufUsage.acquisitions .reply front ≤ 1) (e : Fault) :
    KeepsBuffers ⟨front, s', .error e⟩ where
  request h := absurd h (by simp)
  reply h := absurd h (by simp)
  oneReply := hone
  noUse := by
    rw [← List.append_nil front, Usage.noUseAfterRelease_append hkeeps]
    exact Usage.noUseAfterRelease_nil

/-- A call that returns, with its first `free` at the head of `tail` or later. -/
theorem keepsBuffers_return (hkeeps : bufUsage.KeepsAll front)
    (hone : bufUsage.acquisitions .reply (front ++ tail) ≤ 1)
    (hrequest : bufUsage.releases .request tail = 1)
    (hreply : bufUsage.releases .reply tail = bufUsage.acquisitions .reply (front ++ tail))
    (hno : bufUsage.NoUseAfterRelease tail) : KeepsBuffers ⟨front ++ tail, s', .ok ()⟩ where
  request _ := by rw [Usage.releases_append, hkeeps.releases_eq_zero, hrequest]
  reply _ := by rw [Usage.releases_append, hkeeps.releases_eq_zero, hreply, Nat.zero_add]
  oneReply := hone
  noUse := (Usage.noUseAfterRelease_append hkeeps).mpr hno

end Paths

/-- The two frees at the end of a call whose reply goes unused behind them. -/
theorem noUse_frees : bufUsage.NoUseAfterRelease [.free .reply, .free .request] := by
  simp [Usage.noUseAfterRelease_cons, Usage.noUseAfterRelease_nil, Event.used]

/-- A release alone uses nothing. -/
theorem noUse_free (b : Buf) : bufUsage.NoUseAfterRelease [.free b] := by
  simp [Usage.noUseAfterRelease_cons, Usage.noUseAfterRelease_nil]

/-- **Every call frees its buffers as it should and leaves them alone then, except
the calls that send an OFFER or an ACK.** -/
theorem keepsBuffers_iff (cfg : Config) (d : Datagram) (s : Server) :
    KeepsBuffers (dhcpRecv cfg d s)
      ↔ ¬ FindsReply cfg s d .discover ∧ ∀ m addr, ¬ TakesAck cfg s d m addr := by
  -- without a reply there is no OFFER and no ACK
  have hnone : (∀ h, ¬ FindsReply cfg s d h) →
      ¬ FindsReply cfg s d .discover ∧ ∀ m addr, ¬ TakesAck cfg s d m addr :=
    fun hno => ⟨hno _, fun m addr hack => hno _ hack.findsReply⟩
  have hrequest : d.p.handler = some .request → ¬ FindsReply cfg s d .discover := by
    intro hh hrep
    rw [hrep.handler] at hh
    exact absurd hh (by simp)
  have hoffer : FindsReply cfg s d .discover → ¬ KeepsBuffers (dhcpRecv cfg d s) :=
    FindsReply.uses_freed
  have hcase := dhcpRecv_cases cfg d s
  generalize dhcpRecv cfg d s = o at hcase hoffer
  cases hcase with
  | noType ht =>
      refine iff_of_true ?_ (hnone fun h => not_findsReply_of_handler (by simp [Pbuf.handler, ht]))
      exact keepsBuffers_fault (List.forall_mem_singleton.mpr rfl) (Nat.zero_le _) _
  | ignored t ht hh =>
      refine iff_of_true ?_ (hnone fun h => not_findsReply_of_handler hh)
      show KeepsBuffers ⟨[.read .request (ofsOptions + 2) 1] ++ [.free .request], _, _⟩
      exact keepsBuffers_return (List.forall_mem_singleton.mpr rfl) (Nat.zero_le _) rfl rfl
        (noUse_free _)
  | noChaddr h hh hm =>
      refine iff_of_true ?_ (hnone fun h => not_findsReply_of_chaddr hm)
      exact keepsBuffers_fault (keepsAll_enterEvents h) (Nat.zero_le _) _
  | exhausted h m hh hm ha =>
      refine iff_of_true ?_ (hnone fun h => not_findsReply_of_exhausted hm ha)
      exact keepsBuffers_return (keepsAll_enterEvents h) (Nat.zero_le _) rfl rfl (noUse_free _)
  | noReply h m addr leases hh hm ha hb =>
      refine iff_of_true ?_ (hnone fun h => not_findsReply_of_noReply hb)
      have hfront : ∀ a, bufUsage.KeepsAll (enterEvents h ++ [.alloc a]) := fun a =>
        (keepsAll_enterEvents h).append (List.forall_mem_singleton.mpr rfl)
      cases d.rp with
      | none => exact keepsBuffers_return (hfront none) (Nat.zero_le _) rfl rfl (noUse_free _)
      | some b =>
          show KeepsBuffers ⟨(enterEvents h ++ [.alloc (some b.length)])
            ++ [.free .reply, .free .request], _, _⟩
          exact keepsBuffers_return (hfront _) (Nat.le_refl 1) rfl rfl noUse_frees
  | offer m addr leases b hh hm ha hb =>
      -- the printf behind pbuf_free reads the reply
      have hrep := findsReply_of_slot hh hm ha hb
      exact iff_of_false (hoffer hrep) fun hno => hno.1 hrep
  | scanFault m addr leases b es e hh hm ha hb hscan =>
      refine iff_of_true ?_ ⟨hrequest hh, fun m' addr' => not_takesAck_of_scanFault hscan⟩
      have hacq := acquisitions_scanned cfg b hscan
      exact keepsBuffers_fault (keepsAll_scanned cfg b hscan) (Nat.le_of_eq hacq) e
  | ack m addr leases b mac es hh hm ha hb hscan hmac =>
      refine iff_of_false (fun hkeeps => ?_) fun hno => ?_
      · -- the same printf as in the OFFER
        have hprint := hkeeps.noUse.left.right
        simp [Usage.noUseAfterRelease_cons, Event.released, Event.used] at hprint
      · -- nor does the condition hold: the scan has come to the slot's address
        have hres : (d.p.scan { s with leases := leases }).result = .ok addr := by rw [hscan]
        exact hno.2 m addr ⟨hh, hm, ⟨leases, ha⟩, ⟨b, replyBuf_eq_some hb⟩, closed_of_scan hres⟩
  | nak m addr reqAddr leases b es hh hm ha hb hscan hne =>
      refine iff_of_true ?_ ⟨hrequest hh, fun m' addr' => not_takesAck_of_ne hm ha hscan hne⟩
      -- a NAK is not printed
      have hfront := keepsAll_scanned cfg b hscan
      have hacq := acquisitions_scanned cfg b hscan
      generalize enterEvents .request ++ newRespEvents cfg d.p b ++ es = front at *
      rw [List.append_assoc]
      refine keepsBuffers_return hfront ?_ rfl ?_ ?_
      · rw [Usage.acquisitions_append, hacq]
        exact Nat.le_refl 1
      · rw [Usage.acquisitions_append, hacq]
        rfl
      · -- the options are written, and the NAK is sent
        have hsend : bufUsage.KeepsAll [.write .reply ofsOptions 10, .send s.dhcpPcb
            (nakMsg cfg d.p d.netif b) broadcastAddr LWIP_IANA_PORT_DHCP_CLIENT] :=
          List.forall_mem_cons.mpr ⟨rfl, List.forall_mem_singleton.mpr rfl⟩
        exact (Usage.noUseAfterRelease_append hsend).mpr noUse_frees

/-- A DISCOVER of a new client. -/
theorem offer_uses_freed_reply :
    ¬ KeepsBuffers (dhcpRecv sampleConfig (sampleMsg DHCPDISCOVER anyAddr macA [])
      (sampleServer [])) := by
  apply FindsReply.uses_freed
  have hopts := clientMsg_hasOptions anyAddr macA [msgTypeOpt DHCPDISCOVER]
  exact findsReply_of_slot hopts.handler_discover (sampleMsg_chaddr _ _ macA _) allocateAddr_macA
    (sampleMsg_buf _ _ macA _)

end PicoosLwip.Dhcps
