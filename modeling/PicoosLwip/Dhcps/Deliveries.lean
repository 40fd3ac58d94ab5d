/-
  PicoosLwip.Dhcps.Deliveries — every sequence of datagrams, also of those whose
  call does not return.

  `RecvStep` is a call that returns.  A call that reads memory that is not
  mapped does not: the thread that runs the server is gone with it, and what
  comes later is not heard.  `Deliver` has a step for both.

  Main results:
    * `returns_iff`         — the calls that return;
    * `sent_of_fault`       — the others send nothing;
    * `exists_deliveries`   — every sequence of datagrams can be delivered;
    * `handled_of_deliveries`, `returns_of_deliveries` — the server is there at
      the end exactly where every call has returned.
-/
import PicoosLwip.Dhcps.Requests

namespace PicoosLwip.Dhcps

open PicoosLwip.Framework

/-! ## §1. The calls that find a slot and a reply. -/

/-- The handler `h` finds a slot for its client and a buffer for its reply. -/
structure FindsReply (cfg : Config) (s : Server) (d : Datagram) (h : Handler) : Prop where
  handler : d.p.handler = some h
  client : ∃ m, d.p.chaddr = some m ∧ SlotFor m s.leases
  buffer : ∃ b, d.rp = some b ∧ cfg.msgSize ≤ b.length

section Finds

variable {cfg : Config} {s : Server} {d : Datagram} {h : Handler} {m : EthAddr} {addr : Ip4Addr}
  {leases : List Lease} {b : List UInt8}

/-- The branches of `RecvCase` behind `newResp`. -/
theorem findsReply_of_slot (hh : d.p.handler = some h) (hm : d.p.chaddr = some m)
    (ha : allocateAddr m s.leases = some (addr, leases)) (hb : replyBuf cfg d.rp = some b) :
    FindsReply cfg s d h :=
  ⟨hh, ⟨m, hm, allocateAddr_isSome_iff.mp ⟨addr, leases, ha⟩⟩, ⟨b, replyBuf_eq_some hb⟩⟩

/-- No handler, no reply. -/
theorem not_findsReply_of_handler (hh : d.p.handler = none) : ¬ FindsReply cfg s d h := by
  intro hrep
  rw [hrep.handler] at hh
  exact absurd hh (by simp)

/-- No hardware address, no reply. -/
theorem not_findsReply_of_chaddr (hm : d.p.chaddr = none) : ¬ FindsReply cfg s d h := by
  intro hrep
  obtain ⟨m, hm', -⟩ := hrep.client
  rw [hm] at hm'
  exact absurd hm' (by simp)

/-- No slot, no reply. -/
theorem not_findsReply_of_exhausted (hm : d.p.chaddr = some m)
    (ha : allocateAddr m s.leases = none) : ¬ FindsReply cfg s d h := by
  intro hrep
  obtain ⟨m', hm', hslot⟩ := hrep.client
  obtain rfl : m = m' := Option.some.inj (hm.symm.trans hm')
  obtain ⟨addr, leases, ha'⟩ := allocateAddr_isSome_iff.mpr hslot
  rw [ha] at ha'
  exact absurd ha' (by simp)

/-- No buffer, no reply. -/
theorem not_findsReply_of_noReply (hb : replyBuf cfg d.rp = none) : ¬ FindsReply cfg s d h := by
  intro hrep
  obtain ⟨b, hrp, hsize⟩ := hrep.buffer
  rw [hrp, replyBuf_of_le hsize] at hb
  exact absurd hb (by simp)

end Finds

/-! ## §2. The calls that return. -/

/-- The mapped memory reaches to the type byte, and holds an END that closes
the options where they are scanned: inside the payload or behind it. -/
structure ReturnsFrom (cfg : Config) (s : Server) (d : Datagram) : Prop where
  typed : ofsOptions + 2 < d.p.mem.length
  closed : FindsReply cfg s d .request → Closed (d.p.mem.drop ofsOptions)

section Returns

variable {cfg : Config} {s s' : Server} {d : Datagram}

/-- With the type byte the hardware address is mapped too. -/
theorem chaddr_of_typed (h : ofsOptions + 2 < d.p.mem.length) : d.p.chaddr ≠ none := by
  have hofs := ofs_values
  obtain ⟨m, hm, -⟩ := peekVec_of_le (show ofsChaddr + 6 ≤ d.p.mem.length by omega)
  unfold Pbuf.chaddr
  rw [hm]
  exact Option.some_ne_none m

/-- **Exactly the calls that return.** -/
theorem returns_iff : (dhcpRecv cfg d s).result = .ok () ↔ ReturnsFrom cfg s d := by
  have hcase := dhcpRecv_cases cfg d s
  generalize dhcpRecv cfg d s = o at hcase
  -- a type byte was read in every case but the first
  have htyped : ∀ {h : Handler}, d.p.handler = some h → ofsOptions + 2 < d.p.mem.length := by
    intro h hh
    by_contra hle
    have ht : d.p.typeByte = none := List.getElem?_eq_none (Nat.le_of_not_lt hle)
    simp [Pbuf.handler, ht] at hh
  have hfault : ∀ e : Fault, (Except.error e : Except Fault Unit) ≠ .ok () := fun e => by simp
  cases hcase with
  | noType ht =>
      refine ⟨fun h => absurd h (hfault _), fun h => ?_⟩
      unfold Pbuf.typeByte at ht
      rw [List.getElem?_eq_none_iff] at ht
      exact absurd h.typed (Nat.not_lt.mpr ht)
  | ignored t ht hh =>
      have hlt := (List.getElem?_eq_some_iff.mp ht).1
      exact ⟨fun _ => ⟨hlt, fun hrep => absurd hrep (not_findsReply_of_handler hh)⟩, fun _ => rfl⟩
  | noChaddr h hh hm =>
      exact ⟨fun h => absurd h (hfault _), fun h => absurd hm (chaddr_of_typed h.typed)⟩
  | exhausted h m hh hm ha =>
      exact ⟨fun _ => ⟨htyped hh, fun hrep => absurd hrep (not_findsReply_of_exhausted hm ha)⟩,
        fun _ => rfl⟩
  | noReply h m addr leases hh hm ha hb =>
      exact ⟨fun _ => ⟨htyped hh, fun hrep => absurd hrep (not_findsReply_of_noReply hb)⟩,
        fun _ => rfl⟩
  | offer m addr leases b hh hm ha hb =>
      refine ⟨fun _ => ⟨htyped hh, fun hrep => ?_⟩, fun _ => rfl⟩
      rw [hrep.handler] at hh
      exact absurd hh (by decide)
  | scanFault m addr leases b es e hh hm ha hb hscan =>
      refine ⟨fun h => absurd h (hfault _), fun h => ?_⟩
      -- over closed options the scan would have returned
      obtain ⟨ts, rest, hts⟩ := h.closed (findsReply_of_slot hh hm ha hb)
      rw [scan_closed hts] at hscan
      exact absurd (Outcome.mk.inj hscan).2.2 (by simp)
  | ack m addr leases b mac es hh hm ha hb hscan hmac =>
      refine ⟨fun _ => ⟨htyped hh, fun _ => ?_⟩, fun _ => rfl⟩
      obtain ⟨ts, rest, hts, -⟩ := closed_of_scan (congrArg Outcome.result hscan)
      exact ⟨ts, rest, hts⟩
  | nak m addr reqAddr leases b es hh hm ha hb hscan hne =>
      refine ⟨fun _ => ⟨htyped hh, fun _ => ?_⟩, fun _ => rfl⟩
      obtain ⟨ts, rest, hts, -⟩ := closed_of_scan (congrArg Outcome.result hscan)
      exact ⟨ts, rest, hts⟩

/-- A step is a call that returns. -/
theorem RecvStep.returns {l : Datagram × List Event} (h : RecvStep cfg s l s') :
    ReturnsFrom cfg s l.1 :=
  returns_iff.mp (congrArg Outcome.result h)

/-- **A call that does not return sends nothing**: what is sent in a sequence of datagrams is
sent by the calls that return. -/
theorem sent_of_fault {es : List Event} {e : Fault} (h : dhcpRecv cfg d s = ⟨es, s', .error e⟩) :
    sentMsgs es = [] := by
  have hcase := dhcpRecv_cases cfg d s
  rw [h] at hcase
  cases hcase with
  | noType ht => rfl
  | noChaddr hd hh hm => exact sentMsgs_enterEvents hd
  | scanFault m addr leases b es e hh hm ha hb hscan =>
      rw [sentMsgs_append, sentMsgs_append, sentMsgs_enterEvents, sentMsgs_newRespEvents,
        sentMsgs_scan hscan]
      rfl

end Returns

/-! ## §3. Deliveries. -/

/-- A datagram is delivered to the server; `none` is a server that is stuck in
a call that did not return. -/
inductive Deliver (cfg : Config) : Option Server → Datagram × List Event → Option Server → Prop
  | handled {s s' : Server} {l : Datagram × List Event} (h : RecvStep cfg s l s') :
      Deliver cfg (some s) l (some s')
  | stuck {s s' : Server} {d : Datagram} {es : List Event} {e : Fault}
      (h : dhcpRecv cfg d s = ⟨es, s', .error e⟩) : Deliver cfg (some s) (d, es) none
  | unheard {d : Datagram} : Deliver cfg none (d, []) none

/-- The call of a delivery returns; a stuck server has none. -/
def CallReturns (cfg : Config) (t : Option Server) (l : Datagram × List Event)
    (_ : Option Server) : Prop := ∀ s ∈ t, ReturnsFrom cfg s l.1

section Runs

variable {cfg : Config} {s₀ s s' : Server} {t t₀ t' t'' : Option Server}
  {l : Datagram × List Event} {ls : List (Datagram × List Event)}

/-- Any datagram can be delivered at any time. -/
theorem exists_deliver (cfg : Config) (t : Option Server) (d : Datagram) :
    ∃ es t', Deliver cfg t (d, es) t' := by
  cases t with
  | none => exact ⟨[], none, .unheard⟩
  | some s =>
      rcases hrun : dhcpRecv cfg d s with ⟨es, s', r⟩
      cases r with
      | error e => exact ⟨es, none, .stuck hrun⟩
      | ok a => exact ⟨es, some s', .handled hrun⟩

/-- **Every sequence of datagrams can be delivered.** -/
theorem exists_deliveries (cfg : Config) (t₀ : Option Server) (ds : List Datagram) :
    ∃ ls t, Run (Deliver cfg) t₀ ls t ∧ ls.map Prod.fst = ds := by
  induction ds generalizing t₀ with
  | nil => exact ⟨[], t₀, .nil, rfl⟩
  | cons d ds ih =>
      obtain ⟨es, t₁, hfirst⟩ := exists_deliver cfg t₀ d
      obtain ⟨ls, t, hrun, hds⟩ := ih t₁
      exact ⟨(d, es) :: ls, t, .cons hfirst hrun, by rw [List.map_cons, hds]⟩

/-- A delivery whose call returns is a handled datagram. -/
theorem Deliver.recv (h : Deliver cfg (some s) l t) (hret : ReturnsFrom cfg s l.1) :
    ∃ s', t = some s' ∧ RecvStep cfg s l s' := by
  cases h with
  | handled hstep => exact ⟨_, rfl, hstep⟩
  | stuck hrun =>
      have hok := returns_iff.mpr hret
      rw [hrun] at hok
      exact absurd hok nofun

/-- Who is there after a delivery was there before it, and its call has returned. -/
theorem Deliver.of_some (h : Deliver cfg t l (some s')) :
    ∃ s, t = some s ∧ RecvStep cfg s l s' := by
  cases h with
  | handled hstep => exact ⟨_, rfl, hstep⟩

/-- A delivery has one outcome. -/
theorem Deliver.unique (h : Deliver cfg t l t') (h' : Deliver cfg t l t'') : t' = t'' := by
  cases h with
  | handled hstep =>
      obtain ⟨s', rfl, hstep'⟩ := h'.recv hstep.returns
      exact congrArg some (Outcome.mk.inj (hstep.symm.trans hstep')).2.1
  | stuck hrun =>
      cases h' with
      | handled hstep => exact absurd (Outcome.mk.inj (hrun.symm.trans hstep)).2.2 nofun
      | stuck _ => rfl
  | unheard =>
      cases h' with
      | unheard => rfl

/-- Handled datagrams are deliveries. -/
theorem deliveries_of_handled (h : Run (RecvStep cfg) s₀ ls s) :
    Run (Deliver cfg) (some s₀) ls (some s) := by
  induction h with
  | nil => exact .nil
  | snoc _ hstep ih => exact .snoc ih (.handled hstep)

/-- **Deliveries whose calls all return are handled datagrams.** -/
theorem handled_of_deliveries (h : Run (Deliver cfg) (some s₀) ls t)
    (hret : EachStep (Deliver cfg) (some s₀) (CallReturns cfg) ls) :
    ∃ s, t = some s ∧ Run (RecvStep cfg) s₀ ls s := by
  have hsim : ∀ t l t' s, t = some s → Deliver cfg t l t' ∧ CallReturns cfg t l t' →
      ∃ s', RecvStep cfg s l s' ∧ t' = some s' := by
    rintro _ l t' s rfl ⟨hstep, hcall⟩
    obtain ⟨s', rfl, hrecv⟩ := hstep.recv (hcall s rfl)
    exact ⟨s', hrecv, rfl⟩
  obtain ⟨s, hrun, ht⟩ := Run.simulate hsim rfl (h.restrict hret)
  exact ⟨s, ht, hrun⟩

/-- **A server that is there at the end has returned from every call.** -/
theorem returns_of_deliveries (h : Run (Deliver cfg) t₀ ls (some s)) :
    EachStep (Deliver cfg) t₀ (CallReturns cfg) ls := by
  -- a server that is there was there before, back to any point of the run
  have hback : ∀ {t ks s}, Run (Deliver cfg) t ks (some s) → ∃ s', t = some s' := by
    intro t ks s hks
    generalize hu : some s = u at hks
    induction hks generalizing s with
    | nil => exact ⟨s, hu.symm⟩
    | snoc _ hs ih =>
        subst hu
        obtain ⟨s', hs', -⟩ := hs.of_some
        exact ih hs'.symm
  rintro pre l post t u rfl hpre hstep s' rfl
  obtain ⟨t', hpre', hrest⟩ := h.of_append
  obtain ⟨u', hstep', hpost⟩ := hrest.of_cons
  have hdet : ∀ t l t' t'', Deliver cfg t l t' → Deliver cfg t l t'' → t' = t'' :=
    fun _ _ _ _ => Deliver.unique
  obtain rfl := hpre.unique hdet hpre'
  obtain ⟨v, rfl⟩ := hback hpost
  obtain ⟨s'', hs'', hrecv⟩ := hstep'.of_some
  obtain rfl := Option.some.inj hs''
  exact hrecv.returns

end Runs

end PicoosLwip.Dhcps
