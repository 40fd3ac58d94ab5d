/-
  PicoosLwip.SysArch.Wait — how long a thread waited, as sys_arch.c reports it.

  `sys_arch_sem_wait` and `sys_arch_mbox_fetch` end with the same lines.  They
  scale the ticks that went by to milliseconds, in 32 bits, raise what is less
  than a tick to half a tick, and cut the result off at the timeout.  A timeout
  of 0 means to wait for ever; the cut is made all the same.

  Main results:
    * `semWaits_iff`, `mboxFetches_iff` — both report `waited`;
    * `reports_exactly_iff`   — when that is the time that went by;
    * `reports_positive_iff`  — when it is not zero.
-/
import PicoosLwip.Framework.Environment
import PicoosLwip.SysArch.Clock

namespace PicoosLwip.SysArch

open PicoosLwip.Framework

/-! ## §1. The two functions. -/

/-- The time ran out. -/
def SYS_ARCH_TIMEOUT : UInt32 := 0xFFFFFFFF

/-- How long the kernel may wait: for ever, or for a time in milliseconds, which its
`MS` turns into ticks. -/
inductive Patience where
  | INFINITE
  | MS (timeout : UInt32)
  deriving DecidableEq

/-- What they call, with the semaphore or the mailbox that is meant. -/
inductive Op where
  | jiffies
  | nosSemaWait (sem : Nat) (patience : Patience)
  | uosRingGet (mbox : Nat) (patience : Patience)
  deriving DecidableEq

/-- A status, positive after a timeout; a message, if there was one. -/
def Op.Ans : Op → Type
  | .jiffies => UInt32
  | .nosSemaWait _ _ => Int
  | .uosRingGet _ _ => Option Nat

/-- A function that may wait. -/
abbrev Waiter (α : Type) : Type := Program Op Op.Ans α

/-- The tick counter. -/
def jiffies : Waiter UInt32 := Program.perform Op.jiffies

/-- Wait for a semaphore; a positive status says that it was not granted. -/
def nosSemaWait (sem : Nat) (patience : Patience) : Waiter Int :=
  Program.perform (Op.nosSemaWait sem patience)

/-- Take a message out, and wait for one as long as `patience` says. -/
def uosRingGet (mbox : Nat) (patience : Patience) : Waiter (Option Nat) :=
  Program.perform (Op.uosRingGet mbox patience)

/-- `(timeout == 0) ? INFINITE : (UINT_t) MS(timeout)` -/
def patience (timeout : UInt32) : Patience := if timeout = 0 then .INFINITE else .MS timeout

/-- The milliseconds to report for some ticks, in `u32_t`. -/
def waited (HZ timeout ticks : UInt32) : UInt32 :=
  let w := ticks * 1000
  let w := w / HZ
  let w := if w < 1000 / HZ then (if HZ < 500 then 500 / HZ else 1) else w
  if w < timeout then w else timeout

/-- Wait, and report for how long. -/
def sys_arch_sem_wait (HZ : UInt32) (sem : Nat) (timeout : UInt32) : Waiter UInt32 := do
  let start ← jiffies
  if (← nosSemaWait sem (patience timeout)) > 0 then
    pure SYS_ARCH_TIMEOUT
  else
    pure (waited HZ timeout ((← jiffies) - start))

/-- The time, and the message that `*msg` is. -/
def sys_arch_mbox_fetch (HZ : UInt32) (mbox : Nat) (timeout : UInt32) :
    Waiter (UInt32 × Option Nat) := do
  let start ← jiffies
  match ← uosRingGet mbox (patience timeout) with
  | none => pure (SYS_ARCH_TIMEOUT, none)
  | some msg => pure (waited HZ timeout ((← jiffies) - start), some msg)

/-! ## §2. Waits that are granted. -/

/-- The status of `nosSemaWait` that goes with the semaphore. -/
def Obtained (status : Int) : Prop := ¬ status > 0

/-- The kernel grants what is waited for; `jiffies` is `start` before that, and `now`
once the thread is `woken`. -/
def granting (start now : UInt32) : Program.Env Bool Op Op.Ans
  | woken, .jiffies, j, woken' => j = (if woken then now else start) ∧ woken' = woken
  | _, .nosSemaWait _ _, status, woken' => Obtained status ∧ woken' = true
  | _, .uosRingGet _ _, msg, woken' => msg ≠ none ∧ woken' = true

/-- `sys_arch_sem_wait` may return `w` with the semaphore. -/
def SemWaits (HZ start now timeout w : UInt32) : Prop :=
  ∃ sem woken, Program.Exec (granting start now) false (sys_arch_sem_wait HZ sem timeout) w woken

/-- `sys_arch_mbox_fetch` may return `w` with a message. -/
def MboxFetches (HZ start now timeout w : UInt32) : Prop :=
  ∃ mbox msg woken,
    Program.Exec (granting start now) false (sys_arch_mbox_fetch HZ mbox timeout) (w, msg) woken

variable {HZ start now timeout w : UInt32}

/-- The clock before and after the wait. -/
theorem granting_jiffies {woken woken' : Bool} {j : UInt32} :
    Program.Exec (granting start now) woken jiffies j woken'
      ↔ j = (if woken then now else start) ∧ woken' = woken := Program.exec_perform

/-- **What `sys_arch_sem_wait` reports** with the semaphore. -/
theorem semWaits_iff : SemWaits HZ start now timeout w ↔ w = waited HZ timeout (now - start) := by
  unfold SemWaits sys_arch_sem_wait
  simp only [Program.exec_bind, granting_jiffies]
  constructor
  · rintro ⟨sem, woken, _, _, ⟨rfl, rfl⟩, status, s₂, hwait, hrest⟩
    obtain ⟨hobtained, rfl⟩ := Program.exec_perform.mp hwait
    rw [if_neg hobtained] at hrest
    simp only [Program.exec_bind, granting_jiffies] at hrest
    obtain ⟨_, _, ⟨rfl, rfl⟩, hret⟩ := hrest
    exact (Program.exec_pure.mp hret).1
  · rintro rfl
    have hobtained : Obtained 0 := Int.lt_irrefl 0
    refine ⟨0, true, start, false, ⟨rfl, rfl⟩, (0 : Int), true,
      Program.exec_perform.mpr ⟨hobtained, rfl⟩, ?_⟩
    rw [if_neg hobtained]
    simp only [Program.exec_bind, granting_jiffies]
    exact ⟨now, true, ⟨rfl, rfl⟩, Program.exec_pure.mpr ⟨rfl, rfl⟩⟩

/-- **What `sys_arch_mbox_fetch` reports** with a message. -/
theorem mboxFetches_iff :
    MboxFetches HZ start now timeout w ↔ w = waited HZ timeout (now - start) := by
  unfold MboxFetches sys_arch_mbox_fetch
  simp only [Program.exec_bind, granting_jiffies]
  constructor
  · rintro ⟨mbox, msg, woken, _, _, ⟨rfl, rfl⟩, got, s₂, hget, hrest⟩
    obtain ⟨hgot, rfl⟩ := Program.exec_perform.mp hget
    cases got with
    | none => exact absurd rfl hgot
    | some m =>
        simp only [Program.exec_bind, granting_jiffies] at hrest
        obtain ⟨_, _, ⟨rfl, rfl⟩, hret⟩ := hrest
        exact (Prod.mk.inj (Program.exec_pure.mp hret).1).1
  · rintro rfl
    refine ⟨0, some 0, true, start, false, ⟨rfl, rfl⟩, some 0, true,
      Program.exec_perform.mpr ⟨Option.some_ne_none 0, rfl⟩, ?_⟩
    simp only [Program.exec_bind, granting_jiffies]
    exact ⟨now, true, ⟨rfl, rfl⟩, Program.exec_pure.mpr ⟨rfl, rfl⟩⟩

/-! ## §3. The time that went by. -/

/-- Half a tick in milliseconds, where that is one at least. -/
def halfTick (h : Nat) : Nat := if h < 500 then 500 / h else 1

/-- `w` milliseconds, raised to half a tick if they are less than a tick, and cut off
at the timeout `t`. -/
def clamped (h t w : Nat) : Nat := min t (if 1000 / h ≤ w then w else halfTick h)

/-- The time to report for some ticks: nothing wraps. -/
def exactTime (HZ timeout ticks : UInt32) : Nat :=
  clamped HZ.toNat timeout.toNat (millis HZ ticks.toNat)

/-- The same number. -/
theorem toNat_halfTick (HZ : UInt32) :
    (if HZ < 500 then 500 / HZ else 1 : UInt32).toNat = halfTick HZ.toNat := by
  unfold halfTick
  rw [apply_ite UInt32.toNat, UInt32.toNat_div]
  rfl

/-- **The time reported**: the clamps are right, the scaled ticks are wrapped. -/
theorem toNat_waited (HZ timeout ticks : UInt32) :
    (waited HZ timeout ticks).toNat
      = clamped HZ.toNat timeout.toNat ((ticks * 1000).toNat / HZ.toNat) := by
  have hhalf := toNat_halfTick HZ
  have htick : ((1000 : UInt32) / HZ).toNat = 1000 / HZ.toNat := UInt32.toNat_div ..
  have hdiv : (ticks * 1000 / HZ).toNat = (ticks * 1000).toNat / HZ.toNat := UInt32.toNat_div ..
  unfold waited clamped
  simp only [UInt32.lt_iff_toNat_lt, apply_ite UInt32.toNat, hdiv, htick] at *
  rw [hhalf]
  generalize (ticks * 1000).toNat / HZ.toNat = m
  by_cases htoo : m < 1000 / HZ.toNat
  · rw [if_pos htoo, if_neg (Nat.not_le.mpr htoo), Nat.min_def]
    split <;> split <;> omega
  · rw [if_neg htoo, if_pos (Nat.not_lt.mp htoo), Nat.min_def]
    split <;> split <;> omega

/-- Half a tick is at most a tick, and at most 500 ms. -/
theorem halfTick_le {h : Nat} (hpos : 0 < h) (hmax : h ≤ 1000) :
    halfTick h ≤ 1000 / h ∧ halfTick h ≤ 500 := by
  unfold halfTick
  split
  · exact ⟨Nat.div_le_div_right (by decide), Nat.div_le_self _ _⟩
  · exact ⟨(Nat.one_le_div_iff hpos).mpr hmax, by decide⟩

/-- A time `v` that falls short of `w` makes no difference where the timeout cuts
off both, or cuts off at less than is reported at least. -/
theorem clamped_eq_iff {h t v w : Nat} (hhalf : halfTick h ≤ 1000 / h) (hlt : halfTick h < w)
    (hw : 1000 / h ≤ w) (hv : v < w) :
    clamped h t v = clamped h t w ↔ t ≤ halfTick h ∨ max t (1000 / h) ≤ v := by
  unfold clamped
  rw [if_pos hw]
  generalize 1000 / h = tick at *
  generalize halfTick h = half at *
  split <;> omega

/-- **When the wrap of the scaled ticks does not show.** -/
theorem waited_exact_iff {HZ timeout ticks : UInt32} (hpos : 1 ≤ HZ) (hmax : HZ ≤ 1000) :
    (waited HZ timeout ticks).toNat = exactTime HZ timeout ticks
      ↔ ticks.toNat * 1000 < 2 ^ 32 ∨ timeout.toNat ≤ halfTick HZ.toNat
        ∨ max timeout.toNat (1000 / HZ.toNat) * HZ.toNat ≤ (ticks * 1000).toNat := by
  have hpos' : 0 < HZ.toNat := hpos
  have hmax' : HZ.toNat ≤ 1000 := hmax
  have hscaled : (ticks * 1000).toNat = ticks.toNat * 1000 % 2 ^ 32 := UInt32.toNat_mul ..
  rw [toNat_waited]
  unfold exactTime millis
  by_cases hno : ticks.toNat * 1000 < 2 ^ 32
  · rw [hscaled, Nat.mod_eq_of_lt hno]
    exact iff_of_true rfl (.inl hno)
  · -- at least 2^32 scaled ticks are lost, more than any tick rate
    obtain ⟨hhalf, hhalf'⟩ := halfTick_le hpos' hmax'
    have htick : 1000 / HZ.toNat ≤ 1000 := Nat.div_le_self _ _
    -- the exact time and the one with the wrap, the second below the first
    have hw : 1000 < ticks.toNat * 1000 / HZ.toNat := by
      rw [← Nat.add_one_le_iff, Nat.le_div_iff_mul_le hpos']
      omega
    have hv : (ticks * 1000).toNat / HZ.toNat < ticks.toNat * 1000 / HZ.toNat := by
      rw [← Nat.add_one_le_iff, Nat.le_div_iff_mul_le hpos', Nat.add_one_mul]
      have hmul := Nat.div_mul_le_self (ticks * 1000).toNat HZ.toNat
      omega
    rw [clamped_eq_iff hhalf (by omega) (by omega) hv, Nat.le_div_iff_mul_le hpos']
    exact ⟨.inr, fun h => h.resolve_left hno⟩

/-- What either function may report is what `waited` says. -/
theorem reported_iff : SemWaits HZ start now timeout w ∨ MboxFetches HZ start now timeout w
    ↔ w = waited HZ timeout (now - start) := by
  rw [semWaits_iff, mboxFetches_iff, or_self]

/-- With the semaphore or a message, both functions report the time that went by
since `start`, the same, and no timeout. -/
structure ReportsExactly (HZ start now timeout : UInt32) : Prop where
  semWaits : ∀ w, SemWaits HZ start now timeout w → w.toNat = exactTime HZ timeout (now - start)
  mboxFetches : ∀ w, MboxFetches HZ start now timeout w →
    w.toNat = exactTime HZ timeout (now - start)
  agree : ∀ w w', SemWaits HZ start now timeout w → MboxFetches HZ start now timeout w' → w = w'
  noTimeout : ∀ w, SemWaits HZ start now timeout w ∨ MboxFetches HZ start now timeout w →
    w ≠ SYS_ARCH_TIMEOUT

/-- **The time is reported exactly as long as its 32 bits are enough**, or where the
timeout cuts off what they lose. -/
theorem reports_exactly_iff (hpos : 1 ≤ HZ) (hmax : HZ ≤ 1000) (hlt : timeout < 0xFFFFFFFF) :
    ReportsExactly HZ start now timeout
      ↔ (now - start).toNat * 1000 < 2 ^ 32 ∨ timeout.toNat ≤ halfTick HZ.toNat
        ∨ max timeout.toNat (1000 / HZ.toNat) * HZ.toNat ≤ ((now - start) * 1000).toNat := by
  rw [← waited_exact_iff hpos hmax]
  constructor
  · exact fun h => h.semWaits _ (semWaits_iff.mpr rfl)
  · intro hexact
    -- both functions report `waited`
    refine ⟨?_, ?_, ?_, ?_⟩
    · intro w hw
      rw [semWaits_iff.mp hw, hexact]
    · intro w hw
      rw [mboxFetches_iff.mp hw, hexact]
    · intro w w' hw hw'
      rw [semWaits_iff.mp hw, mboxFetches_iff.mp hw']
    · -- it is at most the timeout
      intro w hw htimeout
      have hle : (waited HZ timeout (now - start)).toNat ≤ timeout.toNat := by
        rw [toNat_waited]
        exact Nat.min_le_left _ _
      rw [← reported_iff.mp hw, htimeout] at hle
      exact Nat.not_lt.mpr hle hlt

/-- A wait of 20 ticks at 100 ticks a second, while the counter wraps. -/
theorem reports_exactly_iff_short :
    1 ≤ (100 : UInt32) ∧ (100 : UInt32) ≤ 1000 ∧ (1000 : UInt32) < 0xFFFFFFFF
      ∧ ReportsExactly 100 0xFFFFFFF6 10 1000 ∧ exactTime 100 1000 (10 - 0xFFFFFFF6) = 200 :=
  ⟨by decide, by decide, by decide,
    (reports_exactly_iff (by decide) (by decide) (by decide)).mpr (.inl (by decide)), by decide⟩

/-- After some twelve hours at that rate, half a tick is reported. -/
theorem long_wait_collapses :
    SemWaits 100 0 4294968 43000000 5 ∧ exactTime 100 43000000 (4294968 - 0) = 42949680
      ∧ ¬ ReportsExactly 100 0 4294968 43000000 := by
  have hwaits : SemWaits 100 0 4294968 43000000 5 := semWaits_iff.mpr (by decide)
  refine ⟨hwaits, by decide, ?_⟩
  intro hexact
  exact absurd (hexact.semWaits _ hwaits) (by decide)

/-! ## §4. Never zero. -/

/-- Half a tick is never 0. -/
theorem halfTick_pos {h : Nat} (hpos : 0 < h) : 0 < halfTick h := by
  unfold halfTick
  split
  next hlt => exact Nat.div_pos (Nat.le_of_lt hlt) hpos
  next => exact Nat.one_pos

/-- Where a tick has a millisecond at least, what is less than a tick is raised. -/
theorem clamped_div_pos_iff {h t m : Nat} (hpos : 0 < h) :
    0 < clamped h t (m / h) ↔ 0 < t ∧ (h ≤ 1000 ∨ h ≤ m) := by
  have hhalf := halfTick_pos hpos
  have htick : 0 < 1000 / h ↔ h ≤ 1000 := Nat.one_le_div_iff hpos
  have hm : 0 < m / h ↔ h ≤ m := Nat.one_le_div_iff hpos
  unfold clamped
  rw [← htick, ← hm]
  generalize 1000 / h = tick at *
  generalize m / h = v at *
  split <;> omega

/-- With the semaphore or a message, neither function reports zero. -/
def ReportsPositive (HZ start now timeout : UInt32) : Prop :=
  ∀ w, SemWaits HZ start now timeout w ∨ MboxFetches HZ start now timeout w → 0 < w

/-- **Zero is reported for every wait without a timeout**, and at more than 1000 ticks
a second for one that is over within a millisecond, as the 32 bits have it. -/
theorem reports_positive_iff (hpos : 1 ≤ HZ) :
    ReportsPositive HZ start now timeout
      ↔ timeout ≠ 0 ∧ (HZ ≤ 1000 ∨ HZ ≤ (now - start) * 1000) := by
  have hne : timeout ≠ 0 ↔ 0 < timeout.toNat := UInt32.pos_iff_ne_zero.symm
  have hreported : ReportsPositive HZ start now timeout
      ↔ 0 < (waited HZ timeout (now - start)).toNat := by
    constructor
    · exact fun h => h _ (reported_iff.mpr rfl)
    · intro h w hw
      rw [reported_iff.mp hw]
      exact h
  rw [hreported, toNat_waited, hne]
  exact clamped_div_pos_iff hpos

/-- A wait that is over at once. -/
theorem reports_positive_iff_at_once : 1 ≤ (100 : UInt32) ∧ ReportsPositive 100 7 7 1000 :=
  ⟨by decide, (reports_positive_iff (by decide)).mpr (by decide)⟩

/-- A second without a timeout. -/
theorem endless_wait_reports_zero :
    SemWaits 100 0 100 0 0 ∧ MboxFetches 100 0 100 0 0 ∧ ¬ ReportsPositive 100 0 100 0 := by
  have hwaits : SemWaits 100 0 100 0 0 := semWaits_iff.mpr (by decide)
  refine ⟨hwaits, mboxFetches_iff.mpr (by decide), ?_⟩
  intro hpos
  exact absurd (hpos 0 (.inl hwaits)) (by decide)

end PicoosLwip.SysArch
