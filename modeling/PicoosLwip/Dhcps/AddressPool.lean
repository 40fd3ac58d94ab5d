/-
  PicoosLwip.Dhcps.AddressPool — the addresses that a start hands out.

  `dhcpServerStartRaw` adds 10, 11 and 12 to the last octet of the server's own
  address, modulo 256, and looks at no netmask.  In a subnet of up to 128
  addresses the sums may leave it or hit its end.  In a larger one they stay, but
  the octet may wrap to 0 in the subnet's first 256 addresses, or come to 255 in
  its last.

  Main results:
    * `usablePool_iff`        — when the three are hosts' addresses and free;
    * `pool_leaves_subnet`, `pool_meets_broadcast` — two servers where not.
-/
import PicoosLwip.Framework.Subnet
import PicoosLwip.Dhcps.Requests

namespace PicoosLwip.Dhcps

open PicoosLwip.Framework

/-! ## §1. Addresses as numbers. -/

/-- The octets, most significant first. -/
def addrNumber (a : Ip4Addr) : Nat := a.toList.foldl (fun n octet => n * 256 + octet.toNat) 0

/-- The address as the 32 bits that netmasks are made for. -/
def addrBits (a : Ip4Addr) : BitVec 32 := BitVec.ofNat 32 (addrNumber a)

/-- An address made of four octets. -/
theorem addrNumber_IP4_ADDR (a b c d : Nat) : addrNumber (IP4_ADDR a b c d)
    = ((a % 256 * 256 + b % 256) * 256 + c % 256) * 256 + d % 256 := by
  simp [addrNumber, IP4_ADDR]

/-- Every address is. -/
theorem exists_octets (a : Ip4Addr) : ∃ w x y z : UInt8, a = #v[w, x, y, z] := by
  rcases a with ⟨⟨l⟩, hl⟩
  match l, hl with
  | [w, x, y, z], _ => exact ⟨w, x, y, z, rfl⟩

/-- The same number. -/
theorem toNat_addrBits (a : Ip4Addr) : (addrBits a).toNat = addrNumber a := by
  obtain ⟨w, x, y, z, rfl⟩ := exists_octets a
  have hw := w.toNat_lt
  have hx := x.toNat_lt
  have hy := y.toNat_lt
  have hz := z.toNat_lt
  unfold addrBits
  rw [BitVec.toNat_ofNat, Nat.mod_eq_of_lt]
  simp [addrNumber]
  omega

/-- The number of slot `i`, for a server with number `x`. -/
def slotNumber (x i : Nat) : Nat := x / 256 * 256 + (x % 256 + i + 10) % 256

/-- **Only the last octet moves.** -/
theorem toNat_slotAddr (base : Ip4Addr) (i : Nat) :
    (addrBits (slotAddr base i)).toNat = slotNumber (addrBits base).toNat i := by
  obtain ⟨w, x, y, z, rfl⟩ := exists_octets base
  have hw := w.toNat_lt
  have hx := x.toNat_lt
  have hy := y.toNat_lt
  have hz := z.toNat_lt
  have hbase : addrNumber #v[w, x, y, z]
      = ((w.toNat * 256 + x.toNat) * 256 + y.toNat) * 256 + z.toNat := by
    simp [addrNumber]
  have hslot := addrNumber_IP4_ADDR w.toNat x.toNat y.toNat (z.toNat + i + 10)
  rw [toNat_addrBits, toNat_addrBits, hbase]
  unfold slotNumber
  refine hslot.trans ?_
  omega

/-- It always moves. -/
theorem slotAddr_ne (base : Ip4Addr) {i : Nat} (hi : i < MAX_LEASES) : slotAddr base i ≠ base := by
  intro heq
  have hsame := congrArg (fun a => (addrBits a).toNat) heq
  simp only [toNat_slotAddr, slotNumber] at hsame
  have hmax : MAX_LEASES = 3 := rfl
  omega

/-! ## §2. The pool in its subnet. -/

/-- Slot `i` is a host's in the block of `2^k` addresses of `x`. -/
def SlotFits (k x i : Nat) : Prop :=
  slotNumber x i / 2 ^ k = x / 2 ^ k ∧ slotNumber x i % 2 ^ k ≠ 0
    ∧ slotNumber x i % 2 ^ k ≠ 2 ^ k - 1

/-- In a small block the slots must come before its last address. -/
theorem slotsFit_small {k x : Nat} (hk : k < 8) :
    (∀ i < MAX_LEASES, SlotFits k x i) ↔ x % 2 ^ k + 12 < 2 ^ k - 1 := by
  have hmax : MAX_LEASES = 3 := rfl
  have hcases : k = 0 ∨ k = 1 ∨ k = 2 ∨ k = 3 ∨ k = 4 ∨ k = 5 ∨ k = 6 ∨ k = 7 := by omega
  unfold SlotFits slotNumber
  constructor
  · intro h
    have h0 := h 0 (by omega)
    have h2 := h 2 (by omega)
    rcases hcases with rfl | rfl | rfl | rfl | rfl | rfl | rfl | rfl <;> omega
  · intro h i hi
    rcases hcases with rfl | rfl | rfl | rfl | rfl | rfl | rfl | rfl <;> omega

/-- In a large one the block is kept; its first and last address must not be met. -/
theorem slotsFit_large {k x : Nat} (hk : 8 ≤ k) :
    (∀ i < MAX_LEASES, SlotFits k x i)
      ↔ ¬ (244 ≤ x % 2 ^ k ∧ x % 2 ^ k ≤ 246)
        ∧ ¬ (2 ^ k - 1 ≤ x % 2 ^ k + 12 ∧ x % 2 ^ k + 10 ≤ 2 ^ k - 1) := by
  have hmax : MAX_LEASES = 3 := rfl
  obtain ⟨c, hc, hpos⟩ : ∃ c, 2 ^ k = 256 * c ∧ 0 < c := by
    refine ⟨2 ^ (k - 8), ?_, Nat.two_pow_pos _⟩
    rw [show 256 = 2 ^ 8 from rfl, ← Nat.pow_add, Nat.add_sub_cancel' hk]
  have hx := Nat.mod_mul (a := 256) (b := c) (x := x)
  have hlt : x / 256 % c < c := Nat.mod_lt _ hpos
  -- the octets in front of the last are the server's
  have hfits : ∀ i, SlotFits k x i
      ↔ (x % 256 + i + 10) % 256 + 256 * (x / 256 % c) ≠ 0
        ∧ (x % 256 + i + 10) % 256 + 256 * (x / 256 % c) ≠ 256 * c - 1 := by
    intro i
    have hdiv : slotNumber x i / 256 = x / 256 := by
      unfold slotNumber
      omega
    have hmod : slotNumber x i % 256 = (x % 256 + i + 10) % 256 := by
      unfold slotNumber
      omega
    unfold SlotFits
    rw [hc, ← Nat.div_div_eq_div_mul, ← Nat.div_div_eq_div_mul, Nat.mod_mul, hdiv, hmod]
    exact and_iff_right rfl
  rw [hc, hx]
  simp only [hfits]
  generalize x / 256 % c = t at *
  constructor
  · intro h
    have h0 := h 0 (by omega)
    have h1 := h 1 (by omega)
    have h2 := h 2 (by omega)
    omega
  · intro h i hi
    omega

/-- What a start needs to hand out hosts' addresses, for the server's number in
its subnet and the number of the broadcast address there. -/
def PoolFits (host last : Nat) : Prop :=
  if last < 255 then host + 12 < last
  else ¬ (244 ≤ host ∧ host ≤ 246) ∧ ¬ (last ≤ host + 12 ∧ host + 10 ≤ last)

instance (host last : Nat) : Decidable (PoolFits host last) :=
  inferInstanceAs (Decidable (if last < 255 then host + 12 < last
    else ¬ (244 ≤ host ∧ host ≤ 246) ∧ ¬ (last ≤ host + 12 ∧ host + 10 ≤ last)))

/-- The addresses are distinct, and each is a host's in the subnet of the interface,
but not the server's. -/
structure UsablePool (netif : Netif) (pool : List Ip4Addr) : Prop where
  distinct : pool.Nodup
  host : ∀ a ∈ pool, Subnet.IsHost (addrBits netif.netmask) (addrBits netif.ip) (addrBits a)
  other : ∀ a ∈ pool, a ≠ netif.ip

/-- **The pool of a start is usable exactly when its sums miss the ends of the
subnet.** -/
theorem usablePool_iff {netif : Netif} (hmask : Subnet.Contiguous (addrBits netif.netmask))
    (udpNew : Option Nat) (s : Server) :
    UsablePool netif ((dhcpServerStartRaw netif udpNew s).leases.map Lease.ip)
      ↔ PoolFits (Subnet.host (addrBits netif.netmask) (addrBits netif.ip)).toNat
          (~~~(addrBits netif.netmask)).toNat := by
  obtain ⟨k, -, hk⟩ := hmask
  have hpool : (dhcpServerStartRaw netif udpNew s).leases.map Lease.ip = startPool netif := by
    cases udpNew <;> rfl
  -- an address is a host's when its number misses the two ends
  have hfits : (∀ a ∈ startPool netif,
      Subnet.IsHost (addrBits netif.netmask) (addrBits netif.ip) (addrBits a))
        ↔ ∀ i < MAX_LEASES, SlotFits k (addrBits netif.ip).toNat i := by
    unfold startPool SlotFits
    simp only [List.forall_mem_map, List.mem_range, Subnet.isHost_iff hk, toNat_slotAddr]
  -- the other two parts hold of every start
  have husable : UsablePool netif (startPool netif)
      ↔ ∀ i < MAX_LEASES, SlotFits k (addrBits netif.ip).toNat i := by
    rw [← hfits]
    constructor
    · exact fun h => h.host
    · intro h
      refine ⟨startPool_nodup netif, h, ?_⟩
      intro a ha
      obtain ⟨i, hi, rfl⟩ := List.mem_map.mp ha
      exact slotAddr_ne netif.ip (List.mem_range.mp hi)
  rw [hpool, husable, Subnet.toNat_host hk, hk]
  unfold PoolFits
  split
  -- fewer than 256 addresses: a sum may leave the subnet
  next hsmall => exact slotsFit_small (by
    by_contra hge
    have hpow : 2 ^ 8 ≤ 2 ^ k := Nat.pow_le_pow_right (by decide) (by omega)
    omega)
  -- 256 or more: it wraps in the last octet, and the octets in front of it stay
  next hlarge => exact slotsFit_large (by
    by_contra hlt
    have hpow : 2 ^ k ≤ 2 ^ 7 := Nat.pow_le_pow_right (by decide) (by omega)
    omega)

/-! ## §3. Sample servers. -/

/-- 192.168.7.1 in a subnet of 256 addresses. -/
theorem usablePool_iff_sample : Subnet.Contiguous (addrBits sampleNetif.netmask)
    ∧ UsablePool sampleNetif
      ((dhcpServerStartRaw sampleNetif (some 1) bootServer).leases.map Lease.ip) := by
  have hmask : Subnet.Contiguous (addrBits sampleNetif.netmask) := ⟨8, by decide, by decide⟩
  exact ⟨hmask, (usablePool_iff hmask (some 1) bootServer).mpr (by decide)⟩

/-- The same address in a subnet of 8. -/
def narrowNetif : Netif := ⟨IP4_ADDR 192 168 7 1, IP4_ADDR 255 255 255 248⟩

/-- Six hosts would be enough for the server and three clients, but the slots get
addresses of the next subnet. -/
theorem pool_leaves_subnet : Subnet.Contiguous (addrBits narrowNetif.netmask)
    ∧ Subnet.IsHost (addrBits narrowNetif.netmask) (addrBits narrowNetif.ip)
        (addrBits narrowNetif.ip)
    ∧ MAX_LEASES + 1 ≤ (~~~(addrBits narrowNetif.netmask)).toNat - 1
    ∧ ¬ UsablePool narrowNetif
        ((dhcpServerStartRaw narrowNetif (some 1) bootServer).leases.map Lease.ip) := by
  refine ⟨⟨3, by decide, by decide⟩, ⟨rfl, by decide, by decide⟩, by decide, ?_⟩
  intro husable
  have hslot := husable.host (IP4_ADDR 192 168 7 11) (by decide)
  have hblock := congrArg BitVec.toNat hslot.sameSubnet
  exact absurd hblock (by decide)

/-- A server near the end of a subnet of 256 addresses. -/
def lateNetif : Netif := ⟨IP4_ADDR 192 168 7 243, IP4_ADDR 255 255 255 0⟩

/-- Its last slot gets the broadcast address. -/
theorem pool_meets_broadcast : Subnet.Contiguous (addrBits lateNetif.netmask)
    ∧ Subnet.IsHost (addrBits lateNetif.netmask) (addrBits lateNetif.ip) (addrBits lateNetif.ip)
    ∧ ¬ UsablePool lateNetif
        ((dhcpServerStartRaw lateNetif (some 1) bootServer).leases.map Lease.ip) := by
  refine ⟨⟨8, by decide, by decide⟩, ⟨rfl, by decide, by decide⟩, ?_⟩
  intro husable
  have hslot := husable.host (IP4_ADDR 192 168 7 255) (by decide)
  exact absurd hslot.ne_broadcast (by decide)

end PicoosLwip.Dhcps
