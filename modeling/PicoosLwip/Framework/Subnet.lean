/-
  PicoosLwip.Framework.Subnet — addresses of `w` bits, and the subnets of a mask.

  A mask is contiguous if its ones come first.  Then the subnets are the blocks
  of `2^k` addresses in a row, where `k` is the number of its zeros: the first
  address of a block is the network's, the last its broadcast address, and those
  in between are the hosts'.

  Rules:
    * `sameSubnet_iff`  — two addresses lie in one block;
    * `isHost_iff`      — an address is a host's in the subnet of another.
-/
import Mathlib.Algebra.Order.Group.Nat

namespace PicoosLwip.Framework.Subnet

variable {w : Nat}

/-- The network part of an address. -/
def network (mask a : BitVec w) : BitVec w := a &&& mask

/-- The broadcast address of its network. -/
def broadcast (mask a : BitVec w) : BitVec w := a ||| ~~~mask

/-- The number of `a` in its subnet. -/
def host (mask a : BitVec w) : BitVec w := a &&& ~~~mask

/-- Ones, and behind them only zeros. -/
def Contiguous (mask : BitVec w) : Prop := ∃ k ≤ w, (~~~mask).toNat = 2 ^ k - 1

/-- Two addresses of one network. -/
def SameSubnet (mask a b : BitVec w) : Prop := network mask a = network mask b

/-- `a` is a host address of the subnet of `s`. -/
structure IsHost (mask s a : BitVec w) : Prop where
  sameSubnet : SameSubnet mask a s
  ne_network : a ≠ network mask s
  ne_broadcast : a ≠ broadcast mask s

variable {mask a s : BitVec w} {k : Nat}

/-- Numbers without a common bit add up to their union. -/
theorem toNat_add_of_disjoint {b c : BitVec w} (hdisjoint : a &&& b = 0#w)
    (hunion : a ||| b = c) : a.toNat + b.toNat = c.toNat := by
  rw [← BitVec.toNat_add_of_and_eq_zero hdisjoint, BitVec.add_eq_or_of_and_eq_zero _ _ hdisjoint,
    hunion]

/-- An address is its network address and its number there. -/
theorem toNat_network_add_host (mask a : BitVec w) :
    (network mask a).toNat + (host mask a).toNat = a.toNat := by
  apply toNat_add_of_disjoint
  · ext i
    simp only [network, host, BitVec.getElem_and, BitVec.getElem_not, BitVec.getElem_zero]
    cases a[i] <;> cases mask[i] <;> rfl
  · ext i
    simp only [network, host, BitVec.getElem_or, BitVec.getElem_and, BitVec.getElem_not]
    cases a[i] <;> cases mask[i] <;> rfl

/-- The broadcast address is the one whose number there has all ones. -/
theorem toNat_network_add_not (mask a : BitVec w) :
    (network mask a).toNat + (~~~mask).toNat = (broadcast mask a).toNat := by
  apply toNat_add_of_disjoint
  · ext i
    simp only [network, BitVec.getElem_and, BitVec.getElem_not, BitVec.getElem_zero]
    cases a[i] <;> cases mask[i] <;> rfl
  · ext i
    simp only [network, broadcast, BitVec.getElem_or, BitVec.getElem_and, BitVec.getElem_not]
    cases a[i] <;> cases mask[i] <;> rfl

section Contiguous

variable (hk : (~~~mask).toNat = 2 ^ k - 1)

include hk

/-- The host part is a remainder. -/
theorem toNat_host (a : BitVec w) : (host mask a).toNat = a.toNat % 2 ^ k := by
  unfold host
  rw [BitVec.toNat_and, hk, Nat.and_two_pow_sub_one_eq_mod]

/-- The network part is a multiple of the size. -/
theorem toNat_network (a : BitVec w) : (network mask a).toNat = 2 ^ k * (a.toNat / 2 ^ k) := by
  have hsplit := toNat_network_add_host mask a
  have hmod := Nat.div_add_mod a.toNat (2 ^ k)
  rw [toNat_host hk] at hsplit
  omega

/-- **The subnets are blocks.** -/
theorem sameSubnet_iff (a b : BitVec w) :
    SameSubnet mask a b ↔ a.toNat / 2 ^ k = b.toNat / 2 ^ k := by
  unfold SameSubnet
  rw [← BitVec.toNat_inj, toNat_network hk, toNat_network hk]
  exact Nat.mul_right_inj (Nat.two_pow_pos k).ne'

/-- **The host addresses of a block.** -/
theorem isHost_iff : IsHost mask s a
    ↔ a.toNat / 2 ^ k = s.toNat / 2 ^ k ∧ a.toNat % 2 ^ k ≠ 0 ∧ a.toNat % 2 ^ k ≠ 2 ^ k - 1 := by
  have hmod := Nat.div_add_mod a.toNat (2 ^ k)
  have hnetwork : a = network mask s ↔ a.toNat = 2 ^ k * (s.toNat / 2 ^ k) := by
    rw [← BitVec.toNat_inj, toNat_network hk]
  have hbroadcast : a = broadcast mask s ↔ a.toNat = 2 ^ k * (s.toNat / 2 ^ k) + (2 ^ k - 1) := by
    rw [← BitVec.toNat_inj, ← toNat_network_add_not, toNat_network hk, hk]
  constructor
  · rintro ⟨hsame, hne, hne'⟩
    have hblock := (sameSubnet_iff hk a s).mp hsame
    rw [Ne, hnetwork, ← hblock] at hne
    rw [Ne, hbroadcast, ← hblock] at hne'
    exact ⟨hblock, by omega, by omega⟩
  · rintro ⟨hblock, hfirst, hlast⟩
    refine ⟨(sameSubnet_iff hk a s).mpr hblock, ?_, ?_⟩
    · rw [Ne, hnetwork, ← hblock]
      omega
    · rw [Ne, hbroadcast, ← hblock]
      omega

end Contiguous

end PicoosLwip.Framework.Subnet
