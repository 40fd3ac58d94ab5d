/-
  PicoosLwip.Dhcps.LeaseHistory — what a history of datagrams does to the
  lease table, and whom the addresses are granted to.

  Main results:
    * `leases_determined`  — the table is the first `MAX_LEASES` distinct
      clients of the history, whose addresses never change;
    * `addresses_unique`   — no address is granted to two clients, in a run in
      which no datagram matches the free mark of a slot;
    * `zero_mac_shares_address` — a run in which one does.
-/
import PicoosLwip.Dhcps.LeaseTable
import PicoosLwip.Dhcps.Requests
import Mathlib.Logic.Basic

namespace PicoosLwip.Dhcps

open PicoosLwip.Framework

section History

variable {cfg : Config} {netif : Netif} {udpNew : Option Nat} {s₀ s s' : Server}
  {pool : List Ip4Addr} {c : Admitted EthAddr MAX_LEASES} {ls ks : List (Datagram × List Event)}

/-! ## §1. The table is the history. -/

/-- The clients that are in after a run from a start. -/
theorem order_of_history (ls : List (Datagram × List Event)) :
    ((Admitted.empty : Admitted EthAddr MAX_LEASES).enterAll (askers ls)).order
      = (askers ls).eraseDups.take MAX_LEASES := by
  rw [Admitted.order_enterAll, lawful_beq_subsingleton instBEqOfDecidableEq Vector.instBEq]

/-- The place of a claimed slot. -/
theorem Serves.claimed_slot (h : Serves pool c s) {l : Lease} (hl : l ∈ s.leases)
    (hm : l.mac ≠ freeMac) : ∃ i : Nat, c.order[i]? = some l.mac ∧ pool[i]? = some l.ip := by
  obtain ⟨i, hi⟩ := List.mem_iff_getElem?.mp hl
  rw [h.leases, getElem?_table] at hi
  obtain ⟨ip, hip, rfl⟩ := Option.map_eq_some_iff.mp hi
  refine ⟨i, ?_, hip⟩
  cases hget : c.order[i]? with
  | none => simp [hget] at hm
  | some m => simp

/-- The client of a claimed slot holds its address. -/
theorem Serves.holding_of_slot (h : Serves pool c s) {l : Lease} (hl : l ∈ s.leases)
    (hm : l.mac ≠ freeMac) : Admitted.holding pool c l.mac = some l.ip := by
  obtain ⟨i, hi, hip⟩ := h.claimed_slot hl hm
  exact Admitted.heldBy_getElem? c.nodup hi hip

/-- A claimed slot stays as it is. -/
theorem Serves.slot_of_run (h : Serves pool c s) (hrun : Run (RecvStep cfg) s ks s') {l : Lease}
    (hl : l ∈ s.leases) (hm : l.mac ≠ freeMac) : l ∈ s'.leases := by
  obtain ⟨i, hi, hip⟩ := h.claimed_slot hl hm
  obtain ⟨tail, htail⟩ := Admitted.order_prefix_enterAll c (askers ks)
  have hlt : i < c.order.length := (List.getElem?_eq_some_iff.mp hi).1
  have hslot : s'.leases[i]? = some l := by
    rw [(h.run hrun).leases, getElem?_table, hip, ← htail, List.getElem?_append_left hlt, hi]
    rfl
  exact List.mem_of_getElem? hslot

/-- A client that never gets in is not answered. -/
theorem Serves.unanswered (h : Serves pool c s) (hrun : Run (RecvStep cfg) s ls s')
    {l : Datagram × List Event} (hin : l ∈ ls) {m : EthAddr} (hm : l.1.p.client = some m)
    (hne : m ≠ freeMac) (hout : m ∉ (c.enterAll (askers ls)).order) : sentMsgs l.2 = [] := by
  obtain ⟨pre, t, t', post, rfl, hpre, hstep, hpost⟩ := hrun.split_mem hin
  have hat := h.run hpre
  have hevents : (dhcpRecv cfg l.1 t).events = l.2 := congrArg Outcome.events hstep
  have hasked : askers (pre ++ l :: post) = askers pre ++ (m :: askers post) := by
    simp [askers, Datagram.asker_eq_some.mpr ⟨hm, hne⟩]
  -- if `m` were in after its request, it would be in at the end
  have hheld : Admitted.holding pool ((c.enterAll (askers pre)).enter m) m = none := by
    apply Admitted.heldBy_of_not_mem
    intro hmem
    rw [hasked, Admitted.enterAll_append] at hout
    exact hout ((Admitted.order_prefix_enterAll _ (askers post)).subset hmem)
  rw [← hevents]
  apply sentMsgs_of_exhausted hm
  rw [hat.leases, allocateAddr_table hat.size hat.unmarked hne, hheld]
  rfl

/-- **The lease table is determined by the history** of the datagrams whose calls returned. -/
theorem leases_determined (hrun : Run (RecvStep cfg) (dhcpServerStartRaw netif udpNew s₀) ls s) :
    s.leases.length = MAX_LEASES
      ∧ (∀ i < MAX_LEASES, s.leases[i]?
          = some ⟨((askers ls).eraseDups.take MAX_LEASES)[i]?.getD freeMac, slotAddr netif.ip i⟩)
      ∧ (∀ l ∈ s.leases, l.mac ≠ freeMac → ∀ ks s', Run (RecvStep cfg) s ks s' →
          allocateAddr l.mac s'.leases = some (l.ip, s'.leases))
      ∧ (∀ l ∈ ls, ∀ m, l.1.p.client = some m → m ≠ freeMac →
          m ∉ (askers ls).eraseDups.take MAX_LEASES → sentMsgs l.2 = []) := by
  have hstart := serves_start netif udpNew s₀
  have hserves := hstart.run hrun
  have horder := order_of_history ls
  refine ⟨?_, ?_, ?_, ?_⟩
  · rw [hserves.leases, table_length, hserves.size]
  · intro i hi
    rw [hserves.leases, getElem?_table, horder, startPool]
    simp [hi]
  · -- a claimed slot is still there after any further datagrams
    intro l hl hm ks s' hlater
    have hthen := hserves.run hlater
    exact hthen.allocateAddr_of_holding hm
      (hthen.holding_of_slot (hserves.slot_of_run hlater hl hm) hm)
  · intro l hl m hclient hm hout
    exact hstart.unanswered hrun hl hclient hm (by rwa [horder])

end History

/-- A start, then a DISCOVER of each of two clients. -/
theorem leases_determined_two_clients :
    ∃ ls s, Run (RecvStep sampleConfig) (dhcpServerStartRaw sampleNetif (some 1) bootServer) ls s
      ∧ ls.map (fun l => l.1) = [sampleMsg DHCPDISCOVER anyAddr macA [],
          sampleMsg DHCPDISCOVER anyAddr macB []]
      ∧ s.leases[1]? = some ⟨macB, #v[192, 168, 7, 12]⟩ := by
  obtain ⟨es₁, _, hstep₁, _⟩ := sampleServer_discover allocateAddr_macA
  obtain ⟨es₂, _, hstep₂, _⟩ := sampleServer_discover allocateAddr_macB
  have hrun := Run.cons hstep₁ (Run.single hstep₂)
  rw [sampleServer_nil] at hrun
  refine ⟨_, _, hrun, rfl, ?_⟩
  have hA := Datagram.asker_eq_some.mpr
    ⟨sampleMsg_client (.inl rfl) anyAddr macA [], show macA ≠ freeMac by decide⟩
  have hB := Datagram.asker_eq_some.mpr
    ⟨sampleMsg_client (.inl rfl) anyAddr macB [], show macB ≠ freeMac by decide⟩
  have hasked : askers [(sampleMsg DHCPDISCOVER anyAddr macA [], es₁),
      (sampleMsg DHCPDISCOVER anyAddr macB [], es₂)] = [macA, macB] := by
    simp only [askers, List.filterMap_cons, hA, hB, List.filterMap_nil]
  rw [(leases_determined hrun).2.1 1 (by decide), hasked]
  decide

/-! ## §2. Whom an address is granted to. -/

/-- The history contains an OFFER or ACK of `addr` sent for `m`. -/
def GrantIn (ls : List (Datagram × List Event)) (m : EthAddr) (addr : Ip4Addr) : Prop :=
  ∃ d es msg, (d, es) ∈ ls ∧ d.p.chaddr = some m ∧ msg ∈ sentMsgs es ∧ Grants msg addr

/-- A step that sends a grant grants it. -/
theorem GrantIn.of_step {ls : List (Datagram × List Event)} {d : Datagram} {es : List Event}
    {msg : List UInt8} {m : EthAddr} {addr : Ip4Addr} (hin : (d, es) ∈ ls)
    (hm : d.p.chaddr = some m) (hsent : sentMsgs es = [msg]) (hgrant : Grants msg addr) :
    GrantIn ls m addr :=
  ⟨d, es, msg, hin, hm, by rw [hsent]; exact List.mem_singleton.mpr rfl, hgrant⟩

/-- No datagram whose hardware address is the free mark is dispatched while a
slot carries that mark. -/
def KeepsMark (s : Server) (d : Datagram) : Prop :=
  d.p.client = some freeMac → ∀ l ∈ s.leases, l.mac ≠ freeMac

/-- A step that keeps the free marks to themselves. -/
def KeepsMarkStep (cfg : Config) (s : Server) (l : Datagram × List Event) (s' : Server) : Prop :=
  RecvStep cfg s l s' ∧ KeepsMark s l.1

/-- In a full table the free mark finds nothing. -/
theorem Serves.allocateAddr_free_of_full {pool : List Ip4Addr}
    {c : Admitted EthAddr MAX_LEASES} {s : Server} (h : Serves pool c s)
    (hfull : ∀ l ∈ s.leases, l.mac ≠ freeMac) : allocateAddr freeMac s.leases = none := by
  rw [h.leases] at hfull ⊢
  rw [allocateAddr_table_free _ h.unmarked, List.getElem?_eq_none (table_full hfull)]
  rfl

/-- **A grant in a run** is what its client holds at the end of the run. -/
theorem Serves.holding_of_grantIn {cfg : Config} {pool : List Ip4Addr}
    {c : Admitted EthAddr MAX_LEASES} {s s' : Server} {ls : List (Datagram × List Event)}
    {m : EthAddr} {addr : Ip4Addr} (h : Serves pool c s)
    (hrun : Run (KeepsMarkStep cfg) s ls s') (hg : GrantIn ls m addr) :
    Admitted.holding pool (c.enterAll (askers ls)) m = some addr := by
  have hrecv : Run (RecvStep cfg) s ls s' := hrun.mono fun _ _ _ hs => hs.1
  obtain ⟨d, es, msg, hin, hm, hsent, hgrant⟩ := hg
  obtain ⟨pre, t, t', post, -, hpre, ⟨hstep, hkeeps⟩, -⟩ := hrun.split_mem hin
  have hat := h.run (hpre.mono fun _ _ _ hs => hs.1)
  have hevents : (dhcpRecv cfg d t).events = es := congrArg Outcome.events hstep
  obtain ⟨m', leases, hclient, halloc⟩ := allocateAddr_of_grant (hevents ▸ hsent) hgrant
  obtain rfl : m' = m := by
    unfold Pbuf.client at hclient
    obtain ⟨_, _, hm'⟩ := Option.bind_eq_some_iff.mp hclient
    exact Option.some.inj (hm'.symm.trans hm)
  by_cases hfree : m' = freeMac
  · -- the free mark is granted nothing while no slot carries it
    subst hfree
    rw [hat.allocateAddr_free_of_full (hkeeps hclient)] at halloc
    exact absurd halloc (by simp)
  · exact h.holding_of_run hrecv hin (Datagram.asker_eq_some.mpr ⟨hclient, hfree⟩) hsent hgrant

/-- **Address uniqueness**: in a run that keeps the free marks to themselves no
address is granted to two clients.  A call that does not return ends the run and sends
nothing (`sent_of_fault`). -/
theorem addresses_unique {cfg : Config} {netif : Netif} {udpNew : Option Nat} {s₀ s : Server}
    {ls : List (Datagram × List Event)} {m₁ m₂ : EthAddr} {addr : Ip4Addr}
    (hrun : Run (KeepsMarkStep cfg) (dhcpServerStartRaw netif udpNew s₀) ls s)
    (h₁ : GrantIn ls m₁ addr) (h₂ : GrantIn ls m₂ addr) : m₁ = m₂ := by
  have hstart := serves_start netif udpNew s₀
  exact Admitted.holding_inj (startPool_nodup netif) (hstart.holding_of_grantIn hrun h₁)
    (hstart.holding_of_grantIn hrun h₂)

/-- A client whose hardware address is not the free mark is never in the way. -/
theorem keepsMark_sampleMsg {m : EthAddr} (hm : m ≠ freeMac) (s : Server) :
    KeepsMark s (sampleMsg DHCPDISCOVER anyAddr m []) := by
  intro hfree
  rw [sampleMsg_client (.inl rfl)] at hfree
  exact absurd (Option.some.inj hfree) hm

/-- The DISCOVERs of two clients: each is granted an address, and nobody else has it. -/
theorem addresses_unique_two_clients :
    ∃ ls s, Run (KeepsMarkStep sampleConfig)
        (dhcpServerStartRaw sampleNetif (some 1) bootServer) ls s
      ∧ GrantIn ls macA #v[192, 168, 7, 11] ∧ GrantIn ls macB #v[192, 168, 7, 12]
      ∧ (∀ m, GrantIn ls m #v[192, 168, 7, 11] → m = macA)
      ∧ ∀ m, GrantIn ls m #v[192, 168, 7, 12] → m = macB := by
  obtain ⟨es₁, msg₁, hstep₁, hsent₁, htype₁, haddr₁⟩ := sampleServer_discover allocateAddr_macA
  obtain ⟨es₂, msg₂, hstep₂, hsent₂, htype₂, haddr₂⟩ := sampleServer_discover allocateAddr_macB
  have hkeeps₁ := keepsMark_sampleMsg (m := macA) (by decide) (sampleServer [])
  have hkeeps₂ := keepsMark_sampleMsg (m := macB) (by decide) (sampleServer [macA])
  have hrun : Run (KeepsMarkStep sampleConfig) _ _ _ :=
    Run.cons ⟨hstep₁, hkeeps₁⟩ (Run.single ⟨hstep₂, hkeeps₂⟩)
  rw [sampleServer_nil] at hrun
  have hgrant₁ : GrantIn [(sampleMsg DHCPDISCOVER anyAddr macA [], es₁),
      (sampleMsg DHCPDISCOVER anyAddr macB [], es₂)] macA #v[192, 168, 7, 11] :=
    GrantIn.of_step (List.mem_cons_self ..) (sampleMsg_chaddr _ _ macA _) hsent₁
      ⟨.inl htype₁, haddr₁⟩
  have hgrant₂ : GrantIn [(sampleMsg DHCPDISCOVER anyAddr macA [], es₁),
      (sampleMsg DHCPDISCOVER anyAddr macB [], es₂)] macB #v[192, 168, 7, 12] :=
    GrantIn.of_step (List.mem_cons_of_mem _ (List.mem_singleton.mpr rfl))
      (sampleMsg_chaddr _ _ macB _) hsent₂ ⟨.inl htype₂, haddr₂⟩
  exact ⟨_, _, hrun, hgrant₁, hgrant₂, fun m hm => addresses_unique hrun hm hgrant₁,
    fun m hm => addresses_unique hrun hm hgrant₂⟩

/-- The hardware address 0 is offered the first free slot's address and leaves
the slot free for the next client. -/
theorem zero_mac_shares_address :
    ∃ ls s, Run (RecvStep sampleConfig)
        (dhcpServerStartRaw sampleNetif (some 1) bootServer) ls s
      ∧ ls.map (fun l => l.1) = [sampleMsg DHCPDISCOVER anyAddr freeMac [],
          sampleMsg DHCPDISCOVER anyAddr macA []]
      ∧ GrantIn ls freeMac #v[192, 168, 7, 11] ∧ GrantIn ls macA #v[192, 168, 7, 11]
      ∧ freeMac ≠ macA := by
  have haZero : allocateAddr freeMac (sampleServer []).leases
      = some (#v[192, 168, 7, 11], table (startPool sampleNetif) []) := by decide
  obtain ⟨es₁, msg₁, hstep₁, hsent₁, htype₁, haddr₁⟩ := sampleServer_discover haZero
  obtain ⟨es₂, msg₂, hstep₂, hsent₂, htype₂, haddr₂⟩ := sampleServer_discover allocateAddr_macA
  have hrun := Run.cons hstep₁ (Run.single hstep₂)
  rw [sampleServer_nil] at hrun
  refine ⟨_, _, hrun, rfl, ?_, ?_, by decide⟩
  · exact GrantIn.of_step (List.mem_cons_self ..) (sampleMsg_chaddr _ _ freeMac _) hsent₁
      ⟨.inl htype₁, haddr₁⟩
  · exact GrantIn.of_step (List.mem_cons_of_mem _ (List.mem_singleton.mpr rfl))
      (sampleMsg_chaddr _ _ macA _) hsent₂ ⟨.inl htype₂, haddr₂⟩

end PicoosLwip.Dhcps
