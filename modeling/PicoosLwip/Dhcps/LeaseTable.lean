/-
  PicoosLwip.Dhcps.LeaseTable — the lease table as a first-come pool.

  `leases[]` is meant as a pool: a client gets the first free slot and keeps
  it.  `table pool order` is the array in which the clients of `order` hold the
  first slots and the others carry the free mark.  The two search loops of
  `allocateAddr` on such an array are admission to the pool, for every client
  but one: the hardware address 0 IS the free mark, so the first loop finds
  the first free slot for it and nothing is claimed.

  Main results:
    * `allocateAddr_table`      — `allocateAddr` is admission;
    * `allocateAddr_table_free` — what it does for the free mark;
    * `leases_of_run`           — the table after any run of datagrams;
    * `holding_of_grant`        — what a grant in a run says about the pool.
-/
import PicoosLwip.Dhcps.Recv
import PicoosLwip.Framework.FirstCome

namespace PicoosLwip.Dhcps

open PicoosLwip.Framework

/-! ## §1. The table of an admission order. -/

/-- The slots of `pool`, the first of them claimed by the clients of `order`. -/
def table : List Ip4Addr → List EthAddr → List Lease
  | [], _ => []
  | ip :: pool, [] => ⟨freeMac, ip⟩ :: table pool []
  | ip :: pool, m :: order => ⟨m, ip⟩ :: table pool order

/-- At the start all slots are free. -/
theorem table_nil (pool : List Ip4Addr) :
    table pool [] = pool.map fun ip => ⟨freeMac, ip⟩ := by
  induction pool with
  | nil => rfl
  | cons ip pool ih => rw [table, ih, List.map_cons]

/-- There are as many slots as addresses. -/
theorem table_length : ∀ (pool : List Ip4Addr) (order : List EthAddr),
    (table pool order).length = pool.length
  | [], _ => rfl
  | _ :: pool, [] => congrArg (· + 1) (table_length pool [])
  | _ :: pool, _ :: order => congrArg (· + 1) (table_length pool order)

/-- Slot `i`: its address is that of the pool, its client is the `i`-th in. -/
theorem getElem?_table : ∀ (pool : List Ip4Addr) (order : List EthAddr) (i : Nat),
    (table pool order)[i]? = pool[i]?.map fun ip => ⟨order[i]?.getD freeMac, ip⟩
  | [], _, i => by simp [table]
  | ip :: pool, [], i => by
      cases i with
      | zero => simp [table]
      | succ i => simpa [table] using getElem?_table pool [] i
  | ip :: pool, m :: order, i => by
      cases i with
      | zero => simp [table]
      | succ i => simpa [table] using getElem?_table pool order i

/-- No slot carries the free mark exactly when everyone who fits is in. -/
theorem table_full {pool : List Ip4Addr} {order : List EthAddr}
    (h : ∀ l ∈ table pool order, l.mac ≠ freeMac) : pool.length ≤ order.length := by
  by_contra hlt
  -- the slot behind the last client is free
  have hslot := getElem?_table pool order order.length
  rw [List.getElem?_eq_getElem (show order.length < pool.length by omega)] at hslot
  have hmem := List.mem_of_getElem? hslot
  exact h _ hmem (by simp)

/-! ## §2. The two search loops. -/

/-- "search for existing", for a client. -/
theorem findLease_table {m : EthAddr} (hm : m ≠ freeMac) :
    ∀ (pool : List Ip4Addr) (order : List EthAddr), order.length ≤ pool.length →
      findLease m (table pool order) = Admitted.heldBy pool order m
  | [], order, hlen => by
      obtain rfl : order = [] := List.length_eq_zero_iff.mp (by simpa using hlen)
      rfl
  | ip :: pool, [], _ => by
      have ih := findLease_table hm pool [] (by simp)
      rw [table, findLease, if_neg hm, ih]
      simp
  | ip :: pool, m' :: order, hlen => by
      have ih := findLease_table hm pool order (by simpa using hlen)
      rw [table, findLease, ih, Admitted.heldBy_cons]

/-- "search for existing", for the free mark: it finds the first free slot. -/
theorem findLease_table_free :
    ∀ (pool : List Ip4Addr) (order : List EthAddr), freeMac ∉ order →
      findLease freeMac (table pool order) = pool[order.length]?
  | [], _, _ => by simp [table, findLease]
  | ip :: pool, [], _ => by simp [table, findLease]
  | ip :: pool, m' :: order, hfree => by
      rw [List.mem_cons, not_or] at hfree
      have ih := findLease_table_free pool order hfree.2
      rw [table, findLease, if_neg hfree.1, ih, List.length_cons, List.getElem?_cons_succ]

/-- "create new one" claims the first slot behind the clients. -/
theorem claimLease_table (m : EthAddr) :
    ∀ (pool : List Ip4Addr) (order : List EthAddr), freeMac ∉ order →
      claimLease m (table pool order)
        = pool[order.length]?.map fun ip => (ip, table pool (order ++ [m]))
  | [], _, _ => by simp [table, claimLease]
  | ip :: pool, [], _ => by simp [table, claimLease]
  | ip :: pool, m' :: order, hfree => by
      rw [List.mem_cons, not_or] at hfree
      have ih := claimLease_table m pool order hfree.2
      have hne : ¬ m' = freeMac := fun h => hfree.1 h.symm
      rw [table, claimLease, if_neg hne, ih]
      simp [table, Function.comp_def]

/-! ## §3. `allocateAddr`. -/

section Pool

variable {pool : List Ip4Addr} {c : Admitted EthAddr MAX_LEASES} {m : EthAddr}

/-- **`allocateAddr` is admission to the pool**: the client is let in if it can
be, and the result is what it holds then. -/
theorem allocateAddr_table (hpool : pool.length = MAX_LEASES) (hfree : freeMac ∉ c.order)
    (hm : m ≠ freeMac) :
    allocateAddr m (table pool c.order)
      = (Admitted.holding pool (c.enter m) m).map fun ip => (ip, table pool (c.enter m).order) := by
  have hlen : c.order.length ≤ pool.length := by
    rw [hpool]
    exact c.length_le
  unfold allocateAddr Admitted.holding
  rw [findLease_table hm pool c.order hlen]
  by_cases hin : m ∈ c.order
  · -- the first loop finds the client's slot
    obtain ⟨ip, hip⟩ := Admitted.exists_heldBy hin hlen
    rw [Admitted.enter_of_mem hin, hip]
    rfl
  · -- it finds nothing, and the second loop claims a free slot if there is one
    rw [Admitted.heldBy_of_not_mem pool hin]
    show claimLease m (table pool c.order) = _
    rw [claimLease_table m pool c.order hfree]
    by_cases hlt : c.order.length < MAX_LEASES
    · rw [Admitted.order_enter_of_new hin hlt, Admitted.heldBy_append_self pool hin]
    · rw [Admitted.enter_of_full m (by omega), Admitted.heldBy_of_not_mem pool hin,
          List.getElem?_eq_none (by omega)]
      rfl

/-- **`allocateAddr` for the free mark**: the first free slot's address, and no
claim. -/
theorem allocateAddr_table_free (pool : List Ip4Addr) (hfree : freeMac ∉ c.order) :
    allocateAddr freeMac (table pool c.order)
      = pool[c.order.length]?.map fun ip => (ip, table pool c.order) := by
  unfold allocateAddr
  rw [findLease_table_free pool c.order hfree, claimLease_table freeMac pool c.order hfree]
  -- both loops look for the first free slot
  cases pool[c.order.length]? <;> rfl

end Pool

/-! ## §4. When there is a slot. -/

/-- Some slot answers to `m`: its own, or a free one. -/
def SlotFor (m : EthAddr) (leases : List Lease) : Prop :=
  ∃ l ∈ leases, l.mac = m ∨ l.mac = freeMac

instance (m : EthAddr) (leases : List Lease) : Decidable (SlotFor m leases) :=
  inferInstanceAs (Decidable (∃ l ∈ leases, _))

/-- Nobody's slot is nowhere. -/
theorem findLease_eq_none {m : EthAddr} : ∀ {leases : List Lease},
    findLease m leases = none ↔ ∀ l ∈ leases, l.mac ≠ m
  | [] => by simp [findLease]
  | l :: leases => by
      by_cases heq : m = l.mac
      · simp [findLease, heq]
      · have hne : ¬ l.mac = m := fun h => heq h.symm
        simp [findLease, heq, hne, findLease_eq_none]

/-- No slot is free where none carries the mark. -/
theorem claimLease_eq_none {m : EthAddr} : ∀ {leases : List Lease},
    claimLease m leases = none ↔ ∀ l ∈ leases, l.mac ≠ freeMac
  | [] => by simp [claimLease]
  | l :: leases => by
      by_cases hfree : l.mac = freeMac
      · simp [claimLease, hfree]
      · rw [claimLease, if_neg hfree, Option.map_eq_none_iff, claimLease_eq_none]
        simp only [List.mem_cons, forall_eq_or_imp]
        exact ⟨fun h => ⟨hfree, h⟩, fun h => h.2⟩

/-- **Exhaustion**: neither a slot of the client's nor a free one. -/
theorem allocateAddr_eq_none {m : EthAddr} {leases : List Lease} :
    allocateAddr m leases = none ↔ ∀ l ∈ leases, l.mac ≠ m ∧ l.mac ≠ freeMac := by
  have hsplit : (∀ l ∈ leases, l.mac ≠ m ∧ l.mac ≠ freeMac)
      ↔ findLease m leases = none ∧ claimLease m leases = none := by
    rw [findLease_eq_none, claimLease_eq_none]
    exact forall₂_and
  rw [hsplit]
  unfold allocateAddr
  cases findLease m leases <;> simp

/-- `allocateAddr` succeeds exactly when a slot answers. -/
theorem allocateAddr_isSome_iff {m : EthAddr} {leases : List Lease} :
    (∃ addr leases', allocateAddr m leases = some (addr, leases')) ↔ SlotFor m leases := by
  have hsome : (∃ addr leases', allocateAddr m leases = some (addr, leases'))
      ↔ ¬ allocateAddr m leases = none := by
    rw [← Ne, Option.ne_none_iff_exists', Prod.exists]
  rw [hsome, allocateAddr_eq_none]
  unfold SlotFor
  constructor
  · intro hno
    by_contra hnone
    exact hno fun l hl => ⟨fun h => hnone ⟨l, hl, .inl h⟩, fun h => hnone ⟨l, hl, .inr h⟩⟩
  · rintro ⟨l, hl, hmac | hmac⟩ hno
    · exact (hno l hl).1 hmac
    · exact (hno l hl).2 hmac

/-- A slot found is the client's. -/
theorem mem_of_findLease {m : EthAddr} {addr : Ip4Addr} : ∀ {leases : List Lease},
    findLease m leases = some addr → ⟨m, addr⟩ ∈ leases
  | [], h => absurd h (by simp [findLease])
  | l :: leases, h => by
      rw [findLease] at h
      split at h
      next heq =>
        obtain rfl := Option.some.inj h
        rw [heq]
        exact List.mem_cons_self ..
      next => exact List.mem_cons_of_mem _ (mem_of_findLease h)

/-- A slot claimed is the client's afterwards, and the claimed ones stay. -/
theorem mem_of_claimLease {m : EthAddr} {addr : Ip4Addr} : ∀ {leases leases' : List Lease},
    claimLease m leases = some (addr, leases') →
      ⟨m, addr⟩ ∈ leases' ∧ ∀ l ∈ leases, l.mac ≠ freeMac → l ∈ leases'
  | [], _, h => absurd h (by simp [claimLease])
  | l :: leases, leases', h => by
      rw [claimLease] at h
      split at h
      next hfree =>
        obtain ⟨rfl, rfl⟩ := Prod.mk.inj (Option.some.inj h)
        refine ⟨List.mem_cons_self .., ?_⟩
        intro l' hl' hm
        rcases List.mem_cons.mp hl' with rfl | hin
        · -- the slot that is claimed was free, so no claimed one is lost
          exact absurd hfree hm
        · exact List.mem_cons_of_mem _ hin
      next hclaimed =>
        obtain ⟨⟨ip, rest⟩, hrest, heq⟩ := Option.map_eq_some_iff.mp h
        obtain ⟨rfl, rfl⟩ := Prod.mk.inj heq
        obtain ⟨hnew, hold⟩ := mem_of_claimLease hrest
        refine ⟨List.mem_cons_of_mem _ hnew, ?_⟩
        intro l' hl' hm
        rcases List.mem_cons.mp hl' with rfl | hin
        · exact List.mem_cons_self ..
        · exact List.mem_cons_of_mem _ (hold l' hin hm)

/-- **What `allocateAddr` leaves**: the client's slot, and all claimed slots. -/
theorem mem_of_allocateAddr {m : EthAddr} {addr : Ip4Addr} {leases leases' : List Lease}
    (h : allocateAddr m leases = some (addr, leases')) :
    ⟨m, addr⟩ ∈ leases' ∧ ∀ l ∈ leases, l.mac ≠ freeMac → l ∈ leases' := by
  unfold allocateAddr at h
  split at h
  next ip hfind =>
    obtain ⟨rfl, rfl⟩ := Prod.mk.inj (Option.some.inj h)
    exact ⟨mem_of_findLease hfind, fun l hl _ => hl⟩
  next => exact mem_of_claimLease h

/-- The table after `allocateAddr`, whatever its result. -/
def claim (m : EthAddr) (leases : List Lease) : List Lease :=
  ((allocateAddr m leases).map Prod.snd).getD leases

/-- A call keeps the claimed slots. -/
theorem mem_claim {m : EthAddr} {leases : List Lease} {l : Lease} (hl : l ∈ leases)
    (hm : l.mac ≠ freeMac) : l ∈ claim m leases := by
  unfold claim
  cases h : allocateAddr m leases with
  | none => exact hl
  | some r => exact (mem_of_allocateAddr h).2 l hl hm

/-! ## §5. What one call does to the table. -/

/-- The client whose datagram is dispatched to a handler. -/
def Pbuf.client (p : Pbuf) : Option EthAddr := p.handler.bind fun _ => p.chaddr

/-- The table that `allocateAddr` leaves. -/
theorem claim_of_some {m : EthAddr} {leases leases' : List Lease} {addr : Ip4Addr}
    (h : allocateAddr m leases = some (addr, leases')) : claim m leases = leases' := by
  simp [claim, h]

/-- Where there is no slot the table stays. -/
theorem claim_of_none {m : EthAddr} {leases : List Lease} (h : allocateAddr m leases = none) :
    claim m leases = leases := by
  simp [claim, h]

/-- A dispatched datagram comes from its hardware address. -/
theorem client_eq {p : Pbuf} {h : Handler} {m : EthAddr} (hh : p.handler = some h)
    (hm : p.chaddr = some m) : p.client = some m := by
  simp [Pbuf.client, hh, hm]

/-- **The table after a call**: the client's claim, whether or not the call is
answered, or returns. -/
theorem recv_leases (cfg : Config) (d : Datagram) (s : Server) :
    (dhcpRecv cfg d s).state.leases
      = match d.p.client with
        | none => s.leases
        | some m => claim m s.leases := by
  have hcase := dhcpRecv_cases cfg d s
  generalize dhcpRecv cfg d s = o at hcase
  cases hcase with
  | noType ht => simp [Pbuf.client, Pbuf.handler, ht]
  | ignored t ht hh => simp [Pbuf.client, hh]
  | noChaddr h hh hm => simp [Pbuf.client, hh, hm]
  | exhausted h m hh hm ha => simp only [client_eq hh hm, claim_of_none ha]
  | noReply h m addr leases hh hm ha hb => simp only [client_eq hh hm, claim_of_some ha]
  | offer m addr leases b hh hm ha hb => simp only [client_eq hh hm, claim_of_some ha]
  | scanFault m addr leases b es e hh hm ha hb hscan =>
      simp only [client_eq hh hm, claim_of_some ha]
  | ack m addr leases b mac es hh hm ha hb hscan hmac =>
      simp only [client_eq hh hm, claim_of_some ha]
  | nak m addr reqAddr leases b es hh hm ha hb hscan hne =>
      simp only [client_eq hh hm, claim_of_some ha]

/-- **What a call sends**: an OFFER, an ACK or a NAK, made in the reply buffer, and
only for a client with a slot. -/
theorem sent_cases {cfg : Config} {d : Datagram} {s : Server} {msg : List UInt8}
    (hsent : msg ∈ sentMsgs (dhcpRecv cfg d s).events) :
    ∃ m addr leases b, d.p.client = some m ∧ allocateAddr m s.leases = some (addr, leases)
      ∧ replyBuf cfg d.rp = some b ∧ (msg = offerMsg cfg d.p d.netif b addr
        ∨ msg = ackMsg cfg d.p d.netif b addr ∨ msg = nakMsg cfg d.p d.netif b) := by
  have hcase := dhcpRecv_cases cfg d s
  generalize dhcpRecv cfg d s = o at hcase hsent
  -- the cases that send nothing go, and the others say what they send
  cases hcase with
  | noType ht => simp at hsent
  | ignored t ht hh => simp at hsent
  | noChaddr h hh hm => simp at hsent
  | exhausted h m hh hm ha => simp at hsent
  | noReply h m addr leases hh hm ha hb => simp at hsent
  | offer m addr leases b hh hm ha hb =>
      exact ⟨m, addr, leases, b, client_eq hh hm, ha, hb, .inl (by simpa using hsent)⟩
  | scanFault m addr leases b es e hh hm ha hb hscan =>
      simp [sentMsgs_scan hscan] at hsent
  | ack m addr leases b mac es hh hm ha hb hscan hmac =>
      exact ⟨m, addr, leases, b, client_eq hh hm, ha, hb,
        .inr (.inl (by simpa [sentMsgs_scan hscan] using hsent))⟩
  | nak m addr reqAddr leases b es hh hm ha hb hscan hne =>
      exact ⟨m, addr, leases, b, client_eq hh hm, ha, hb,
        .inr (.inr (by simpa [sentMsgs_scan hscan] using hsent))⟩

/-- **What an OFFER or ACK says**: its address is what `allocateAddr` gave its
client. -/
theorem allocateAddr_of_grant {cfg : Config} {d : Datagram} {s : Server} {msg : List UInt8}
    {addr : Ip4Addr} (hsent : msg ∈ sentMsgs (dhcpRecv cfg d s).events)
    (hgrant : Grants msg addr) :
    ∃ m leases, d.p.client = some m ∧ allocateAddr m s.leases = some (addr, leases) := by
  obtain ⟨m, addr', leases, b, hclient, ha, hb, hmsg⟩ := sent_cases hsent
  have hsize := (replyBuf_eq_some hb).2
  rcases hmsg with rfl | rfl | rfl
  · obtain rfl := hgrant.unique (grants_offerMsg hsize _ _)
    exact ⟨m, leases, hclient, ha⟩
  · obtain rfl := hgrant.unique (grants_ackMsg hsize _ _)
    exact ⟨m, leases, hclient, ha⟩
  · exact absurd hgrant (not_grants_nakMsg hsize _ _)

/-- Without a slot for its client a datagram is not answered. -/
theorem sentMsgs_of_exhausted {cfg : Config} {d : Datagram} {s : Server} {m : EthAddr}
    (hm : d.p.client = some m) (ha : allocateAddr m s.leases = none) :
    sentMsgs (dhcpRecv cfg d s).events = [] := by
  have hcase := dhcpRecv_cases cfg d s
  generalize dhcpRecv cfg d s = o at hcase
  cases hcase with
  | noType ht => simp
  | ignored t ht hh => simp
  | noChaddr h hh hm => simp
  | exhausted h m' hh hm' ha' => simp
  | noReply h m' addr leases hh hm' ha' hb => simp
  | offer m' addr leases b hh hm' ha' hb
  | scanFault m' addr leases b es e hh hm' ha' hb hscan
  | ack m' addr leases b mac es hh hm' ha' hb hscan hmac
  | nak m' addr reqAddr leases b es hh hm' ha' hb hscan hne =>
      -- in all the other cases `allocateAddr` found a slot
      obtain rfl : m' = m := Option.some.inj ((client_eq hh hm').symm.trans hm)
      rw [ha] at ha'
      exact absurd ha' (by simp)

/-! ## §6. Runs of datagrams. -/

/-- The non-zero hardware address of a datagram that is dispatched. -/
def Datagram.asker (d : Datagram) : Option EthAddr := d.p.client.filter fun m => m ≠ freeMac

/-- The non-zero hardware addresses of the dispatched datagrams of a history. -/
def askers (ls : List (Datagram × List Event)) : List EthAddr := ls.filterMap fun l => l.1.asker

/-- The addresses a start gives the slots. -/
def startPool (netif : Netif) : List Ip4Addr := (List.range MAX_LEASES).map (slotAddr netif.ip)

/-- The server serves `pool`, and `c` are the clients that are in. -/
structure Serves (pool : List Ip4Addr) (c : Admitted EthAddr MAX_LEASES) (s : Server) : Prop where
  size : pool.length = MAX_LEASES
  unmarked : freeMac ∉ c.order
  leases : s.leases = table pool c.order

/-- Who asks, other than the free mark. -/
theorem Datagram.asker_eq_some {d : Datagram} {m : EthAddr} :
    d.asker = some m ↔ d.p.client = some m ∧ m ≠ freeMac := by
  simp [Datagram.asker, Option.filter_eq_some_iff]

/-- The free mark does not count. -/
theorem Datagram.asker_eq_none {d : Datagram} (h : d.p.client = some freeMac) :
    d.asker = none := by
  cases hask : d.asker with
  | none => rfl
  | some m =>
      obtain ⟨hm, hne⟩ := Datagram.asker_eq_some.mp hask
      exact absurd (Option.some.inj (hm.symm.trans h)) hne

/-- The last datagram's client comes last. -/
theorem askers_snoc (ls : List (Datagram × List Event)) (l : Datagram × List Event) :
    askers (ls ++ [l]) = askers ls ++ l.1.asker.toList := by
  unfold askers
  rw [List.filterMap_append]
  cases h : l.1.asker <;> simp [h]

/-- The addresses of a start are distinct: the last octets are. -/
theorem startPool_nodup (netif : Netif) : (startPool netif).Nodup := by
  apply List.Nodup.map_on _ List.nodup_range
  intro i hi j hj heq
  have hmax : MAX_LEASES = 3 := rfl
  rw [List.mem_range] at hi hj
  -- the last octets are `base + i + 10` modulo 256
  have hlast := congrArg (fun a : Ip4Addr => a[3].toNat) heq
  simp [slotAddr, IP4_ADDR] at hlast
  omega

/-- A start leaves the pool empty. -/
theorem serves_start (netif : Netif) (udpNew : Option Nat) (s : Server) :
    Serves (startPool netif) Admitted.empty (dhcpServerStartRaw netif udpNew s) where
  size := by simp [startPool]
  unmarked := List.not_mem_nil
  leases := by
    show _ = table (startPool netif) []
    rw [table_nil, startPool, List.map_map]
    cases udpNew <;> rfl

section Serving

variable {cfg : Config} {pool : List Ip4Addr} {c : Admitted EthAddr MAX_LEASES} {s s' : Server}
  {d : Datagram} {l : Datagram × List Event} {ls : List (Datagram × List Event)}

/-- **One call admits its client**, whether or not it is answered. -/
theorem Serves.recv (h : Serves pool c s) (cfg : Config) (d : Datagram) :
    Serves pool (c.enterAll d.asker.toList) (dhcpRecv cfg d s).state := by
  have hleases := recv_leases cfg d s
  refine ⟨h.size, ?_, ?_⟩
  · intro hmem
    rcases Admitted.mem_of_mem_enterAll hmem with hin | hnew
    · exact h.unmarked hin
    · exact (Datagram.asker_eq_some.mp (Option.mem_toList.mp hnew)).2 rfl
  · rw [hleases]
    cases hclient : d.p.client with
    | none =>
        have hasker : d.asker = none := by simp [Datagram.asker, hclient]
        rw [hasker]
        exact h.leases
    | some m =>
        show claim m s.leases = _
        by_cases hm : m = freeMac
        · subst hm
          rw [Datagram.asker_eq_none hclient]
          -- the first loop finds a free slot, or there is none: no claim either way
          have halloc := allocateAddr_table_free pool h.unmarked
          rw [h.leases, claim, halloc]
          cases pool[c.order.length]? <;> rfl
        · rw [Datagram.asker_eq_some.mpr ⟨hclient, hm⟩]
          have halloc := allocateAddr_table h.size h.unmarked hm
          rw [h.leases, claim, halloc]
          cases hhold : Admitted.holding pool (c.enter m) m with
          | some ip => rfl
          | none =>
              -- the pool was full: nobody is admitted and nothing is claimed
              have hsame := Admitted.enter_of_holding_none (Nat.le_of_eq h.size.symm) hhold
              simp [Admitted.enterAll, hsame]

/-- Each step enters the client that asks. -/
theorem Serves.step (h : Serves pool c s) (hstep : RecvStep cfg s l s') :
    Serves pool (c.enterAll l.1.asker.toList) s' := by
  have hrecv := h.recv cfg l.1
  rwa [hstep] at hrecv

/-- **The table after any run of datagrams.** -/
theorem Serves.run (h : Serves pool c s) (hrun : Run (RecvStep cfg) s ls s') :
    Serves pool (c.enterAll (askers ls)) s' := by
  induction hrun with
  | nil => exact h
  | snoc _ hstep ih =>
      rw [askers_snoc, Admitted.enterAll_append]
      exact ih.step hstep

/-- A client that is in is found again, and nothing changes. -/
theorem Serves.allocateAddr_of_holding (h : Serves pool c s) {m : EthAddr} {addr : Ip4Addr}
    (hm : m ≠ freeMac) (hheld : Admitted.holding pool c m = some addr) :
    allocateAddr m s.leases = some (addr, s.leases) := by
  have hin : m ∈ c.order := Admitted.mem_of_holding hheld
  rw [h.leases, allocateAddr_table h.size h.unmarked hm, Admitted.enter_of_mem hin, hheld]
  rfl

/-- A granted address is what its client holds once it is in. -/
theorem Serves.holding_of_grant (h : Serves pool c s) {m : EthAddr} {msg : List UInt8}
    {addr : Ip4Addr} (hask : d.asker = some m) (hsent : msg ∈ sentMsgs (dhcpRecv cfg d s).events)
    (hgrant : Grants msg addr) : Admitted.holding pool (c.enter m) m = some addr := by
  obtain ⟨hclient, hm⟩ := Datagram.asker_eq_some.mp hask
  obtain ⟨m', leases, hclient', halloc⟩ := allocateAddr_of_grant hsent hgrant
  obtain rfl : m = m' := Option.some.inj (hclient.symm.trans hclient')
  rw [h.leases, allocateAddr_table h.size h.unmarked hm] at halloc
  obtain ⟨ip, hip, heq⟩ := Option.map_eq_some_iff.mp halloc
  rw [hip, (Prod.mk.inj heq).1]

/-- **A grant in a run** tells what its client holds at the end. -/
theorem Serves.holding_of_run (h : Serves pool c s) (hrun : Run (RecvStep cfg) s ls s')
    {es : List Event} (hin : (d, es) ∈ ls) {m : EthAddr} {msg : List UInt8} {addr : Ip4Addr}
    (hask : d.asker = some m) (hsent : msg ∈ sentMsgs es) (hgrant : Grants msg addr) :
    Admitted.holding pool (c.enterAll (askers ls)) m = some addr := by
  obtain ⟨pre, t, t', post, rfl, hpre, hstep, hpost⟩ := hrun.split_mem hin
  have hat := h.run hpre
  have hevents : (dhcpRecv cfg d t).events = es := congrArg Outcome.events hstep
  have hheld := hat.holding_of_grant hask (hevents ▸ hsent) hgrant
  -- later clients only come in behind `m`
  have hasked : askers (pre ++ (d, es) :: post) = askers pre ++ (m :: askers post) := by
    simp [askers, hask]
  rw [hasked, Admitted.enterAll_append]
  apply Admitted.holding_of_prefix _ hheld
  exact Admitted.order_prefix_enterAll _ (askers post)

end Serving

end PicoosLwip.Dhcps
