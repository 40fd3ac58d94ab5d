/-
  PicoosLwip.SysArch.Clock — the clock that sys_arch.c gives lwIP.

  `jiffies` is a 32-bit tick counter that wraps.  `sys_now` scales it to
  milliseconds in 32-bit arithmetic, so the multiplication wraps first, at
  2^32 milliseconds times `HZ`, and the division then turns that wrap into one
  at 2^32 / `HZ`.  lwIP subtracts two readings modulo 2^32, which is exact only
  for a clock that wraps at 2^32.

  Main results:
    * `measures_iff`       — a difference of two readings is the time elapsed
                             exactly when the product does not wrap in between,
                             or `HZ` is 1;
    * `clock_jumps_back`   — a tick over which it is not.
-/
import Mathlib.Algebra.Order.Group.Nat

namespace PicoosLwip.SysArch

/-! ## §1. The two functions. -/

/-- `jiffies * 1000 / HZ`, in `u32_t`. -/
def sys_now (HZ jiffies : UInt32) : UInt32 := jiffies * 1000 / HZ

/-- The tick counter. -/
def sys_jiffies (jiffies : UInt32) : UInt32 := jiffies

/-- Milliseconds in `d` ticks, without any wrap. -/
def millis (HZ : UInt32) (d : Nat) : Nat := d * 1000 / HZ.toNat

/-- Two readings of `sys_now`, `d` ticks apart, differ by the time elapsed; the
floor of each reading may be off by a fraction. -/
def Measures (HZ jiffies : UInt32) (d : Nat) : Prop :=
  (sys_now HZ (jiffies + UInt32.ofNat d) - sys_now HZ jiffies).toNat = millis HZ d
    ∨ (sys_now HZ (jiffies + UInt32.ofNat d) - sys_now HZ jiffies).toNat = millis HZ d + 1

instance (HZ jiffies : UInt32) (d : Nat) : Decidable (Measures HZ jiffies d) :=
  inferInstanceAs (Decidable (_ ∨ _))

/-! ## §2. Division and the wrap. -/

/-- Two floors lose at most one unit. -/
theorem div_add_div_cases (a b h : Nat) (hh : 0 < h) :
    (a + b) / h = a / h + b / h ∨ (a + b) / h = a / h + b / h + 1 := by
  rw [Nat.add_div hh]
  split
  · exact .inr rfl
  · exact .inl (by omega)

/-- At a scale of two or more the floor is at most half. -/
theorem two_mul_div_le (a : Nat) {h : Nat} (hh : 2 ≤ h) : 2 * (a / h) ≤ a := by
  calc 2 * (a / h) ≤ h * (a / h) := Nat.mul_le_mul_right _ hh
    _ ≤ a := Nat.mul_div_le a h

/-- A reading, as a number. -/
theorem toNat_sys_now (HZ j : UInt32) :
    (sys_now HZ j).toNat = j.toNat * 1000 % 2 ^ 32 / HZ.toNat := by
  unfold sys_now
  rw [UInt32.toNat_div, UInt32.toNat_mul]
  rfl

/-- The scaled counter `d` ticks later. -/
theorem scaled_later (j : UInt32) (d : Nat) :
    (j + UInt32.ofNat d).toNat * 1000 % 2 ^ 32 = (j.toNat * 1000 % 2 ^ 32 + d * 1000) % 2 ^ 32 := by
  rw [UInt32.toNat_add, UInt32.toNat_ofNat']
  omega

/-- The difference of two readings, with `a` the scaled counter at the first. -/
theorem toNat_difference (HZ j : UInt32) (d : Nat) {a : Nat}
    (ha : a = j.toNat * 1000 % 2 ^ 32) :
    (sys_now HZ (j + UInt32.ofNat d) - sys_now HZ j).toNat
      = (2 ^ 32 - a / HZ.toNat + (a + d * 1000) % 2 ^ 32 / HZ.toNat) % 2 ^ 32 := by
  rw [UInt32.toNat_sub, toNat_sys_now, toNat_sys_now, scaled_later, ← ha]

/-- Without a wrap in between, the difference is the time elapsed. -/
theorem measures_of_no_wrap {a b h : Nat} (hh : 0 < h) (hno : a + b < 2 ^ 32) :
    (2 ^ 32 - a / h + (a + b) % 2 ^ 32 / h) % 2 ^ 32 = b / h
      ∨ (2 ^ 32 - a / h + (a + b) % 2 ^ 32 / h) % 2 ^ 32 = b / h + 1 := by
  rw [Nat.mod_eq_of_lt hno]
  have hle : (a + b) / h ≤ a + b := Nat.div_le_self _ _
  have hsum := div_add_div_cases a b h hh
  generalize (a + b) / h = x at *
  generalize a / h = y at *
  generalize b / h = z at *
  omega

/-- With one, the later reading is the smaller: the difference is near 2^32 or 0. -/
theorem not_measures_of_wrap {a b h : Nat} (hh : 2 ≤ h) (ha : a < 2 ^ 32) (hb : b < 2 ^ 32)
    (hhb : h ≤ b) (hwrap : 2 ^ 32 ≤ a + b) :
    (2 ^ 32 - a / h + (a + b) % 2 ^ 32 / h) % 2 ^ 32 ≠ b / h
      ∧ (2 ^ 32 - a / h + (a + b) % 2 ^ 32 / h) % 2 ^ 32 ≠ b / h + 1 := by
  -- `c` is the scaled counter at the second reading, behind the first
  obtain ⟨c, hc⟩ : ∃ c, a + b = 2 ^ 32 + c := ⟨a + b - 2 ^ 32, by omega⟩
  have hmod : (a + b) % 2 ^ 32 = c := by omega
  have hback : a = c + (2 ^ 32 - b) := by omega
  have hsum := div_add_div_cases c (2 ^ 32 - b) h (by omega)
  rw [← hback] at hsum
  have hhalf := two_mul_div_le (2 ^ 32 - b) hh
  have hhalf' := two_mul_div_le b hh
  have hpos : 1 ≤ b / h := (Nat.one_le_div_iff (by omega)).mpr hhb
  have hale : a / h ≤ a := Nat.div_le_self _ _
  rw [hmod]
  generalize a / h = x at *
  generalize c / h = y at *
  generalize (2 ^ 32 - b) / h = z at *
  generalize b / h = w at *
  omega

/-! ## §3. When the clock measures. -/

/-- **`sys_now` measures the time elapsed exactly when the scaled counter does
not wrap in between**, at any tick rate but 1. -/
theorem measures_iff {HZ j : UInt32} {d : Nat} (hpos : 1 ≤ HZ) (hmax : HZ ≤ 1000)
    (hd : d * 1000 < 2 ^ 32) :
    Measures HZ j d ↔ HZ = 1 ∨ (j * 1000).toNat + d * 1000 < 2 ^ 32 := by
  have hpos' : 1 ≤ HZ.toNat := hpos
  have hmax' : HZ.toNat ≤ 1000 := hmax
  -- the product is taken in 32 bits
  have hscaled : (j * 1000).toNat = j.toNat * 1000 % 2 ^ 32 := by
    rw [UInt32.toNat_mul]
    rfl
  have hone : HZ = 1 ↔ HZ.toNat = 1 := UInt32.toNat_inj.symm
  unfold Measures millis
  rw [toNat_difference HZ j d hscaled, hone]
  have ha : (j * 1000).toNat < 2 ^ 32 := UInt32.toNat_lt _
  generalize (j * 1000).toNat = a at *
  generalize HZ.toNat = h at *
  -- without a wrap both readings are scaled alike
  by_cases hno : a + d * 1000 < 2 ^ 32
  · exact iff_of_true (measures_of_no_wrap hpos' hno) (.inr hno)
  · by_cases h1 : h = 1
    · -- without a division both wraps are the same
      subst h1
      refine iff_of_true (.inl ?_) (.inl rfl)
      simp only [Nat.div_one]
      omega
    · -- the ticks elapsed are at least one, which is at least 1000 scaled
      have hmiss := not_measures_of_wrap (show 2 ≤ h by omega) ha hd (by omega) (by omega)
      exact iff_of_false (fun hm => hm.elim hmiss.1 hmiss.2) (fun hc => hc.elim h1 hno)

/-- Ten seconds at 100 ticks a second, right after boot. -/
theorem measures_iff_boot : 1 ≤ (100 : UInt32) ∧ (100 : UInt32) ≤ 1000 ∧ Measures 100 0 1000 :=
  ⟨by decide, by decide, (measures_iff (by decide) (by decide) (by decide)).mpr (.inr (by decide))⟩

/-- One tick at 100 ticks a second, after some twelve hours: `sys_now` falls
back by almost 2^32 / 100 milliseconds. -/
theorem clock_jumps_back :
    sys_now 100 4294967 = 42949670 ∧ sys_now 100 (4294967 + 1) = 7 ∧ ¬ Measures 100 4294967 1 := by
  decide

end PicoosLwip.SysArch
