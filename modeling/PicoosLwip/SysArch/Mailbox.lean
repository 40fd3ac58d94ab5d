/-
  PicoosLwip.SysArch.Mailbox — the semaphores and mailboxes of sys_arch.c.

  lwIP's threads and the application's wait for each other through these functions only.
  They are thin: each asks the kernel for one thing and turns the answer into lwIP's.
  The kernel is a parameter, `Pico`: of it is assumed what `kernelEnv` says after its
  documentation: a semaphore is a count, a ring is a bounded queue, and either refuses only
  where the caller does not wait for ever.  Calls on an object that does not exist have no
  behaviour here.

  Main results:
    * `outcome_of_returns`  — what each result says of the effect of its call;
    * `mailbox_order`       — what the threads are told they have posted has come in, and
                              what they are told they have fetched has gone out, in the
                              order of their calls, and first in is first out;
    * `mailbox_conserves`   — no message is lost or doubled, by what the calls returned;
    * `semaphore_conserves` — nor is a token of a semaphore;
    * `sys_arch_refines`    — the threads see every call as a single step.
-/
import PicoosLwip.Framework.Tally
import PicoosLwip.SysArch.Wait

namespace PicoosLwip.SysArch

open PicoosLwip.Framework

/-! ## §1. The functions. -/

/-- What the other functions call. -/
inductive KernelOp where
  | nosSemaCreate (count : UInt8)
  | nosSemaSignal (sem : Nat)
  | nosSemaDestroy (sem : Nat)
  | uosRingCreate (size : Nat)
  | uosRingPut (mbox msg : Nat) (patience : Patience)
  | uosRingDestroy (mbox : Nat)
  /-- `SYS_STATS_INC_USED(mbox)` -/
  | statsInc
  /-- `SYS_STATS_DEC(mbox.used)` -/
  | statsDec
  deriving DecidableEq

/-- A new object, or `NULL`; whether the message was put. -/
def KernelOp.Ans : KernelOp → Type
  | .nosSemaCreate _ => Option Nat
  | .uosRingCreate _ => Option Nat
  | .uosRingPut _ _ _ => Bool
  | _ => Unit

/-- All that the functions do: waiting, and calls of the kernel. -/
abbrev SysOp : Type := Op ⊕ KernelOp

/-- What comes back. -/
abbrev SysOp.Ans : SysOp → Type := Sum.elim Op.Ans KernelOp.Ans

/-- A function of `sys_arch.c`. -/
abbrev Sys (α : Type) : Type := Program SysOp SysOp.Ans α

/-- A new semaphore, if there is memory. -/
def nosSemaCreate (count : UInt8) : Sys (Option Nat) :=
  Program.performInr (KernelOp.nosSemaCreate count)

/-- Count up. -/
def nosSemaSignal (sem : Nat) : Sys Unit := Program.performInr (KernelOp.nosSemaSignal sem)

/-- Give the semaphore back. -/
def nosSemaDestroy (sem : Nat) : Sys Unit := Program.performInr (KernelOp.nosSemaDestroy sem)

/-- A new ring, if there is memory. -/
def uosRingCreate (size : Nat) : Sys (Option Nat) :=
  Program.performInr (KernelOp.uosRingCreate size)

/-- Put a message in, and wait for room as long as `patience` says. -/
def uosRingPut (mbox msg : Nat) (patience : Patience) : Sys Bool :=
  Program.performInr (KernelOp.uosRingPut mbox msg patience)

/-- Give the ring back. -/
def uosRingDestroy (mbox : Nat) : Sys Unit := Program.performInr (KernelOp.uosRingDestroy mbox)

/-- Count. -/
def statsInc : Sys Unit := Program.performInr KernelOp.statsInc

/-- Count back. -/
def statsDec : Sys Unit := Program.performInr KernelOp.statsDec

/-- The size of a mailbox for which none is given. -/
def DEFAULT_MBOX_SIZE : Nat := 10

/-- There was no message. -/
def SYS_MBOX_EMPTY : UInt32 := SYS_ARCH_TIMEOUT

/-- What the functions return. -/
inductive Err where
  | ERR_OK
  | ERR_MEM
  deriving DecidableEq

/-- The result, and what `*sem` is. -/
def sys_sem_new (count : UInt8) : Sys (Err × Option Nat) := do
  match ← nosSemaCreate count with
  | none => pure (.ERR_MEM, none)
  | some sem => pure (.ERR_OK, some sem)

/-- Count up. -/
def sys_sem_signal (sem : Nat) : Sys Unit := nosSemaSignal sem

/-- Give the semaphore back. -/
def sys_sem_free (sem : Nat) : Sys Unit := nosSemaDestroy sem

/-- The result, and what `*mb` is. -/
def sys_mbox_new (size : Nat) : Sys (Err × Option Nat) := do
  let size := if size = 0 then DEFAULT_MBOX_SIZE else size
  match ← uosRingCreate size with
  | none => pure (.ERR_MEM, none)
  | some mb => do
      statsInc
      pure (.ERR_OK, some mb)

/-- The answer of the kernel is not looked at. -/
def sys_mbox_post (mb msg : Nat) : Sys Unit := do
  let _ ← uosRingPut mb msg .INFINITE

/-- Post if there is room. -/
def sys_mbox_trypost (mb msg : Nat) : Sys Err := do
  if ← uosRingPut mb msg (.MS 0) then pure .ERR_OK else pure .ERR_MEM

/-- The result, and the message that `*msg` is. -/
def sys_arch_mbox_tryfetch (mb : Nat) : Sys (UInt32 × Option Nat) := do
  match ← (uosRingGet mb (.MS 0)).inl with
  | none => pure (SYS_MBOX_EMPTY, none)
  | some msg => pure (0, some msg)

/-- `none` is an invalid mailbox. -/
def sys_mbox_free : Option Nat → Sys Unit
  | none => pure ()
  | some mb => do
      uosRingDestroy mb
      statsDec

/-! ## §2. Calls. -/

/-- A call of lwIP's. -/
inductive Call where
  | sys_sem_new (count : UInt8)
  | sys_sem_signal (sem : Nat)
  | sys_arch_sem_wait (sem : Nat) (timeout : UInt32)
  | sys_sem_free (sem : Nat)
  | sys_mbox_new (size : Nat)
  | sys_mbox_post (mb msg : Nat)
  | sys_mbox_trypost (mb msg : Nat)
  | sys_arch_mbox_fetch (mb : Nat) (timeout : UInt32)
  | sys_arch_mbox_tryfetch (mb : Nat)
  | sys_mbox_free (mb : Option Nat)
  deriving DecidableEq

/-- What it returns. -/
def Call.Res : Call → Type
  | .sys_sem_new _ => Err × Option Nat
  | .sys_arch_sem_wait _ _ => UInt32
  | .sys_mbox_new _ => Err × Option Nat
  | .sys_mbox_trypost _ _ => Err
  | .sys_arch_mbox_fetch _ _ => UInt32 × Option Nat
  | .sys_arch_mbox_tryfetch _ => UInt32 × Option Nat
  | _ => Unit

/-- The function that is called. -/
def Call.body (HZ : UInt32) : (c : Call) → Sys c.Res
  | .sys_sem_new count => SysArch.sys_sem_new count
  | .sys_sem_signal sem => SysArch.sys_sem_signal sem
  | .sys_arch_sem_wait sem timeout => (SysArch.sys_arch_sem_wait HZ sem timeout).inl
  | .sys_sem_free sem => SysArch.sys_sem_free sem
  | .sys_mbox_new size => SysArch.sys_mbox_new size
  | .sys_mbox_post mb msg => SysArch.sys_mbox_post mb msg
  | .sys_mbox_trypost mb msg => SysArch.sys_mbox_trypost mb msg
  | .sys_arch_mbox_fetch mb timeout => (SysArch.sys_arch_mbox_fetch HZ mb timeout).inl
  | .sys_arch_mbox_tryfetch mb => SysArch.sys_arch_mbox_tryfetch mb
  | .sys_mbox_free mb => SysArch.sys_mbox_free mb

/-! ## §3. The kernel. -/

/-- A ring buffer: its size, and what is in it. -/
structure Ring where
  size : Nat
  items : List Nat

/-- The semaphores and rings that exist. -/
structure Kernel where
  semas : Nat → Option Nat
  rings : Nat → Option Ring

/-- The same with another semaphore. -/
def Kernel.setSema (s : Kernel) (sem : Nat) (count : Option Nat) : Kernel :=
  { s with semas := Function.update s.semas sem count }

/-- The same with another ring. -/
def Kernel.setRing (s : Kernel) (mbox : Nat) (ring : Option Ring) : Kernel :=
  { s with rings := Function.update s.rings mbox ring }

/-- An answer of `nosSemaWait`. -/
inductive SemaWait (sem : Nat) (p : Patience) (s : Kernel) : Int → Kernel → Prop
  | obtained {status : Int} {n : Nat} (h : s.semas sem = some (n + 1)) (hs : Obtained status) :
      SemaWait sem p s status (s.setSema sem (some n))
  | refused {status : Int} (h : s.semas sem = some 0) (hs : ¬ Obtained status)
      (hp : p ≠ .INFINITE) : SemaWait sem p s status s

/-- An answer of `uosRingGet`. -/
inductive RingGet (mbox : Nat) (p : Patience) (s : Kernel) : Option Nat → Kernel → Prop
  | taken {msg : Nat} {size : Nat} {items : List Nat}
      (h : s.rings mbox = some ⟨size, msg :: items⟩) :
      RingGet mbox p s (some msg) (s.setRing mbox (some ⟨size, items⟩))
  | refused {size : Nat} (h : s.rings mbox = some ⟨size, []⟩) (hp : p ≠ .INFINITE) :
      RingGet mbox p s none s

/-- An answer of `uosRingPut`. -/
inductive RingPut (mbox msg : Nat) (p : Patience) (s : Kernel) : Bool → Kernel → Prop
  | accepted {r : Ring} (h : s.rings mbox = some r) (hroom : r.items.length < r.size) :
      RingPut mbox msg p s true (s.setRing mbox (some ⟨r.size, r.items ++ [msg]⟩))
  | refused {r : Ring} (h : s.rings mbox = some r) (hfull : r.size ≤ r.items.length)
      (hp : p ≠ .INFINITE) : RingPut mbox msg p s false s

/-- What each operation does to the objects, after the documentation. -/
def kernelEnv : Program.Env Kernel SysOp SysOp.Ans
  | s, .inl .jiffies, _, s' => s' = s
  | s, .inl (.nosSemaWait sem p), status, s' => SemaWait sem p s status s'
  | s, .inl (.uosRingGet mbox p), got, s' => RingGet mbox p s got s'
  -- `none` when there is no semaphore left
  | s, .inr (.nosSemaCreate count), ans, s' =>
      (ans = none ∧ s' = s)
        ∨ ∃ sem, ans = some sem ∧ s.semas sem = none ∧ s' = s.setSema sem (some count.toNat)
  | s, .inr (.nosSemaSignal sem), _, s' =>
      ∃ n, s.semas sem = some n ∧ s' = s.setSema sem (some (n + 1))
  | s, .inr (.nosSemaDestroy sem), _, s' => s.semas sem ≠ none ∧ s' = s.setSema sem none
  -- `none` when there is no memory
  | s, .inr (.uosRingCreate size), ans, s' =>
      (ans = none ∧ s' = s)
        ∨ ∃ mbox, ans = some mbox ∧ s.rings mbox = none ∧ s' = s.setRing mbox (some ⟨size, []⟩)
  | s, .inr (.uosRingPut mbox msg p), ok, s' => RingPut mbox msg p s ok s'
  | s, .inr (.uosRingDestroy mbox), _, s' => s.rings mbox ≠ none ∧ s' = s.setRing mbox none
  | s, .inr .statsInc, _, s' => s' = s
  | s, .inr .statsDec, _, s' => s' = s

/-- The clock and the statistics. -/
def SysOp.idle : SysOp → Bool
  | .inl .jiffies | .inr .statsInc | .inr .statsDec => true
  | _ => false

/-- Clock and statistics change nothing. -/
theorem kernelEnv_idle (s : Kernel) (op : SysOp) (ans : op.Ans) (s' : Kernel) (h : op.idle)
    (hop : kernelEnv s op ans s') : s' = s := by
  rcases op with op | op
  · cases op with
    | jiffies => exact hop
    | nosSemaWait sem p | uosRingGet mbox p => exact absurd h (by simp [SysOp.idle])
  · cases op with
    | statsInc | statsDec => exact hop
    | _ => exact absurd h (by simp [SysOp.idle])

/-- pico]OS and the rings of picoos-micro, as sys_arch.c meets them. -/
structure Pico where
  State : Type
  env : Program.Env State SysOp SysOp.Ans
  /-- The semaphores and rings in a state. -/
  objects : State → Kernel
  /-- Who looks at the clock, or counts, changes nothing. -/
  frame : ∀ s op ans s', SysOp.idle op → env s op ans s' → s' = s
  /-- The other operations do to the objects what they are documented to do. -/
  documented : ∀ s op ans s', env s op ans s' → kernelEnv (objects s) op ans (objects s')

/-- A kernel that does all that its documentation allows. -/
def documentedKernel : Pico where
  State := Kernel
  env := kernelEnv
  objects := id
  frame := kernelEnv_idle
  documented _ _ _ _ h := h

/-! ## §4. One effect each. -/

/-- It waits once. -/
theorem sys_arch_sem_wait_once (HZ : UInt32) (sem : Nat) (timeout : UInt32) :
    ((sys_arch_sem_wait HZ sem timeout).inl : Sys UInt32).AtMostOnce SysOp.idle := by
  intro start (status : Int)
  apply Program.AllOps.inl
  show Program.AllOps _ (if status > 0 then _ else _)
  split
  · trivial
  · exact ⟨rfl, fun _ => trivial⟩

/-- **Each call has one effect at most.** -/
theorem Call.body_once (HZ : UInt32) (c : Call) : (c.body HZ).AtMostOnce SysOp.idle := by
  cases c with
  | sys_sem_new count =>
      refine Program.AtMostOnce.bind (Program.AtMostOnce.perform _) fun sem => ?_
      cases sem <;> trivial
  | sys_sem_signal sem => exact Program.AtMostOnce.perform _
  | sys_arch_sem_wait sem timeout => exact sys_arch_sem_wait_once HZ sem timeout
  | sys_sem_free sem => exact Program.AtMostOnce.perform _
  | sys_mbox_new size =>
      refine Program.AtMostOnce.bind (Program.AtMostOnce.perform _) fun mb => ?_
      cases mb with
      | none => trivial
      -- the statistics come behind it, and are idle
      | some mb => exact ⟨rfl, fun _ => trivial⟩
  | sys_mbox_post mb msg =>
      exact Program.AtMostOnce.bind (Program.AtMostOnce.perform _) fun _ => trivial
  | sys_mbox_trypost mb msg =>
      refine Program.AtMostOnce.bind (Program.AtMostOnce.perform _) fun ok => ?_
      cases ok <;> trivial
  | sys_arch_mbox_fetch mb timeout =>
      intro start got
      cases got with
      | none => trivial
      | some msg => exact ⟨rfl, fun _ => trivial⟩
  | sys_arch_mbox_tryfetch mb =>
      intro got
      cases got <;> trivial
  | sys_mbox_free mb =>
      cases mb with
      | none => trivial
      | some mb =>
          exact Program.AtMostOnce.bind (Program.AtMostOnce.perform _) fun _ =>
            ⟨rfl, fun _ => trivial⟩

/-- The functions of sys_arch.c over the kernel. -/
def sysArch (P : Pico) (HZ : UInt32) : Calls P.State SysOp SysOp.Ans Call Call.Res where
  env := P.env
  body := Call.body HZ
  idle := SysOp.idle
  frame := P.frame
  once := Call.body_once HZ

/-! ## §5. What the results say. -/

/-- An operation of the kernel, and its answer. -/
abbrev Effect : Type := Program.Step SysOp SysOp.Ans

instance (status : Int) : Decidable (Obtained status) := inferInstanceAs (Decidable (¬ _))

/-- The effect of a call that returns `r`. -/
def Call.Outcome (HZ : UInt32) : (c : Call) → Option Effect → c.Res → Prop
  | .sys_sem_new count, e, (r : Err × Option Nat) =>
      e = some ⟨.inr (.nosSemaCreate count), r.2⟩ ∧ (r.1 = .ERR_OK ↔ r.2 ≠ none)
  | .sys_sem_signal sem, e, _ => e = some ⟨.inr (.nosSemaSignal sem), ()⟩
  | .sys_arch_sem_wait sem timeout, e, (r : UInt32) => ∃ status : Int,
      e = some ⟨.inl (.nosSemaWait sem (patience timeout)), status⟩
        ∧ if Obtained status then ∃ ticks, r = waited HZ timeout ticks else r = SYS_ARCH_TIMEOUT
  | .sys_sem_free sem, e, _ => e = some ⟨.inr (.nosSemaDestroy sem), ()⟩
  | .sys_mbox_new size, e, (r : Err × Option Nat) =>
      e = some ⟨.inr (.uosRingCreate (if size = 0 then DEFAULT_MBOX_SIZE else size)), r.2⟩
        ∧ (r.1 = .ERR_OK ↔ r.2 ≠ none)
  -- the answer is lost, whatever it was
  | .sys_mbox_post mb msg, e, _ =>
      ∃ ok : Bool, e = some ⟨.inr (.uosRingPut mb msg .INFINITE), ok⟩
  | .sys_mbox_trypost mb msg, e, (r : Err) =>
      e = some ⟨.inr (.uosRingPut mb msg (.MS 0)), decide (r = .ERR_OK)⟩
  -- the message is the kernel's answer; the time is read off the clock
  | .sys_arch_mbox_fetch mb timeout, e, (r : UInt32 × Option Nat) =>
      e = some ⟨.inl (.uosRingGet mb (patience timeout)), r.2⟩
        ∧ if r.2 = none then r.1 = SYS_ARCH_TIMEOUT else ∃ ticks, r.1 = waited HZ timeout ticks
  | .sys_arch_mbox_tryfetch mb, e, (r : UInt32 × Option Nat) =>
      e = some ⟨.inl (.uosRingGet mb (.MS 0)), r.2⟩
        ∧ r.1 = if r.2 = none then SYS_MBOX_EMPTY else 0
  | .sys_mbox_free mb, e, _ => e = mb.map fun mb => ⟨.inr (.uosRingDestroy mb), ()⟩

/-- The result says whether the wait was granted. -/
theorem sem_wait_outcome (HZ : UInt32) (sem : Nat) (timeout : UInt32) :
    Program.Ensures (fun _ => True) ((sys_arch_sem_wait HZ sem timeout).inl : Sys UInt32)
      fun tr r => ∃ e : Option Effect, Program.effects SysOp.idle tr = e.toList ∧ ∃ status : Int,
        e = some ⟨.inl (.nosSemaWait sem (patience timeout)), status⟩
          ∧ if Obtained status then ∃ ticks, r = waited HZ timeout ticks
            else r = SYS_ARCH_TIMEOUT := by
  refine Program.Ensures.call fun (start : UInt32) _ =>
    Program.Ensures.call fun (status : Int) _ => ?_
  show Program.Ensures _ (Program.inl (if status > 0 then _ else _)) _
  by_cases htimeout : status > 0
  · rw [if_pos htimeout]
    refine Program.Ensures.ret ⟨some ⟨_, _⟩, rfl, status, rfl, ?_⟩
    have hrefused : ¬ Obtained status := not_not_intro htimeout
    rw [if_neg hrefused]
  · rw [if_neg htimeout]
    refine Program.Ensures.call fun (now : UInt32) _ =>
      Program.Ensures.ret ⟨some ⟨_, _⟩, rfl, status, rfl, ?_⟩
    have hobtained : Obtained status := htimeout
    rw [if_pos hobtained]
    exact ⟨_, rfl⟩

/-- A run of a call, with its effect. -/
theorem body_outcome (HZ : UInt32) (c : Call) :
    Program.Ensures (fun _ => True) (c.body HZ) fun tr r => ∃ e : Option Effect,
      Program.effects SysOp.idle tr = e.toList ∧ c.Outcome HZ e r := by
  cases c with
  | sys_sem_new count =>
      refine Program.Ensures.call fun (ans : Option Nat) _ => ?_
      -- the result is what the kernel has answered
      cases ans with
      | none => exact Program.Ensures.ret ⟨some ⟨_, _⟩, rfl, rfl, by simp⟩
      | some sem => exact Program.Ensures.ret ⟨some ⟨_, _⟩, rfl, rfl, by simp⟩
  | sys_sem_signal sem => exact Program.Ensures.perform fun _ _ => ⟨some ⟨_, _⟩, rfl, rfl⟩
  | sys_arch_sem_wait sem timeout =>
      exact sem_wait_outcome HZ sem timeout
  | sys_sem_free sem => exact Program.Ensures.perform fun _ _ => ⟨some ⟨_, _⟩, rfl, rfl⟩
  | sys_mbox_new size =>
      refine Program.Ensures.call fun (ans : Option Nat) _ => ?_
      cases ans with
      | none => exact Program.Ensures.ret ⟨some ⟨_, _⟩, rfl, rfl, by simp⟩
      | some mb =>
          exact Program.Ensures.call fun _ _ => Program.Ensures.ret ⟨some ⟨_, _⟩, rfl, rfl, by simp⟩
  | sys_mbox_post mb msg =>
      -- the code looks at no answer here
      exact Program.Ensures.call fun (ok : Bool) _ =>
        Program.Ensures.ret ⟨some ⟨_, _⟩, rfl, ok, rfl⟩
  | sys_mbox_trypost mb msg =>
      refine Program.Ensures.call fun (ok : Bool) _ => ?_
      cases ok with
      | false => exact Program.Ensures.ret ⟨some ⟨_, _⟩, rfl, rfl⟩
      | true => exact Program.Ensures.ret ⟨some ⟨_, _⟩, rfl, rfl⟩
  | sys_arch_mbox_fetch mb timeout =>
      -- the clock, then the ring, and the clock again if there was a message
      refine Program.Ensures.call fun (start : UInt32) _ =>
        Program.Ensures.call fun (got : Option Nat) _ => ?_
      cases got with
      | none => exact Program.Ensures.ret ⟨some ⟨_, _⟩, rfl, rfl, rfl⟩
      | some msg =>
          exact Program.Ensures.call fun (now : UInt32) _ =>
            Program.Ensures.ret ⟨some ⟨_, _⟩, rfl, rfl, _, rfl⟩
  | sys_arch_mbox_tryfetch mb =>
      refine Program.Ensures.call fun (got : Option Nat) _ => ?_
      cases got with
      | none => exact Program.Ensures.ret ⟨some ⟨_, _⟩, rfl, rfl, rfl⟩
      | some msg => exact Program.Ensures.ret ⟨some ⟨_, _⟩, rfl, rfl, rfl⟩
  | sys_mbox_free mb =>
      cases mb with
      | none => exact Program.Ensures.ret ⟨none, rfl, rfl⟩
      | some mb =>
          exact Program.Ensures.call fun _ _ => Program.Ensures.call fun _ _ =>
            Program.Ensures.ret ⟨some ⟨_, _⟩, rfl, rfl⟩

/-- **What a result says of the effect of its call.** -/
theorem outcome_of_returns {P : Pico} {HZ : UInt32} {c : Call} {e : Option Effect} {r : c.Res}
    (h : (sysArch P HZ).Returns c e.toList r) : c.Outcome HZ e r := by
  obtain ⟨tr, htr, heffect⟩ := h
  obtain ⟨e', heffect', hout⟩ := body_outcome HZ c tr r htr fun _ _ => trivial
  have hsame : e'.toList = e.toList := heffect'.symm.trans heffect
  obtain rfl : e' = e := by
    cases e <;> cases e' <;> simp_all
  exact hout

/-! ## §6. A mailbox. -/

/-- The messages in a mailbox. -/
def Kernel.messages (s : Kernel) (mb : Nat) : List Nat := (s.rings mb).elim [] Ring.items

/-- The message that an effect puts into the mailbox. -/
def accepted (mb : Nat) : Effect → List Nat
  | ⟨.inr (.uosRingPut m msg _), (ok : Bool)⟩ => if ok ∧ m = mb then [msg] else []
  | _ => []

/-- The message that it takes from there. -/
def taken (mb : Nat) : Effect → List Nat
  | ⟨.inl (.uosRingGet m _), (got : Option Nat)⟩ => if m = mb then got.toList else []
  | _ => []

/-- One message at a time. -/
theorem accepted_length (mb : Nat) (e : Effect) : (accepted mb e).length ≤ 1 := by
  unfold accepted
  split
  · split <;> simp
  · exact Nat.zero_le 1

/-- One message at a time. -/
theorem taken_length (mb : Nat) (e : Effect) : (taken mb e).length ≤ 1 := by
  unfold taken
  split
  next m p got =>
    split
    · cases got <;> simp
    · exact Nat.zero_le 1
  · exact Nat.zero_le 1

/-- Semaphores hold no messages. -/
@[simp] theorem messages_setSema (s : Kernel) (sem : Nat) (count : Option Nat) (mb : Nat) :
    (s.setSema sem count).messages mb = s.messages mb := rfl

/-- The messages of the new ring. -/
@[simp] theorem messages_setRing_self (s : Kernel) (mb : Nat) (r : Option Ring) :
    (s.setRing mb r).messages mb = r.elim [] Ring.items := by
  show (Function.update s.rings mb r mb).elim [] Ring.items = _
  rw [Function.update_self]

/-- The other rings are as they were. -/
theorem messages_setRing_of_ne (s : Kernel) {mb m : Nat} (h : mb ≠ m) (r : Option Ring) :
    (s.setRing m r).messages mb = s.messages mb := by
  show (Function.update s.rings m r mb).elim [] Ring.items = _
  rw [Function.update_of_ne h]
  rfl

/-- The messages of a ring that is there. -/
theorem messages_of_some {s : Kernel} {mb : Nat} {r : Ring} (h : s.rings mb = some r) :
    s.messages mb = r.items := by
  unfold Kernel.messages
  rw [h, Option.elim_some]

/-- An effect that has nothing to do with the mailbox. -/
theorem messages_of_same {s s' : Kernel} {e : Effect} {mb : Nat} (hin : accepted mb e = [])
    (hout : taken mb e = []) (h : s'.messages mb = s.messages mb) :
    s.messages mb ++ accepted mb e = taken mb e ++ s'.messages mb := by
  rw [hin, hout, h, List.append_nil, List.nil_append]

/-- **One effect on a mailbox**: messages come in behind and go out in front. -/
theorem messages_step {s s' : Kernel} {e : Effect} {mb : Nat} (h : kernelEnv s e.1 e.2 s')
    (hkept : e.1 ≠ .inr (.uosRingDestroy mb)) :
    s.messages mb ++ accepted mb e = taken mb e ++ s'.messages mb := by
  obtain ⟨op, ans⟩ := e
  rcases op with op | op
  · cases op with
    | jiffies =>
        obtain rfl : s' = s := h
        exact messages_of_same rfl rfl rfl
    | nosSemaWait sem p => exact messages_of_same rfl rfl (by cases h <;> rfl)
    | uosRingGet m p =>
        by_cases hm : m = mb
        · subst hm
          show s.messages m ++ [] = (if m = m then Option.toList ans else []) ++ s'.messages m
          -- a message, if there was one, goes out in front
          rw [List.append_nil, if_pos rfl]
          cases h with
          | taken hring =>
              rw [messages_setRing_self, messages_of_some hring]
              rfl
          | refused hring hp => rfl
        · -- another mailbox
          refine messages_of_same rfl (if_neg hm) ?_
          cases h with
          | taken hring => exact messages_setRing_of_ne s (Ne.symm hm) _
          | refused hring hp => rfl
  · cases op with
    | statsInc | statsDec =>
        obtain rfl : s' = s := h
        exact messages_of_same rfl rfl rfl
    | nosSemaCreate count =>
        rcases h with ⟨-, rfl⟩ | ⟨sem, -, -, rfl⟩ <;> exact messages_of_same rfl rfl rfl
    | nosSemaSignal sem =>
        obtain ⟨n, -, rfl⟩ := h
        exact messages_of_same rfl rfl rfl
    | nosSemaDestroy sem =>
        obtain ⟨-, rfl⟩ := h
        exact messages_of_same rfl rfl rfl
    | uosRingCreate size =>
        rcases h with ⟨-, rfl⟩ | ⟨m, -, hnew, rfl⟩
        · exact messages_of_same rfl rfl rfl
        · refine messages_of_same rfl rfl ?_
          by_cases hm : m = mb
          · -- a new mailbox is empty
            subst hm
            rw [messages_setRing_self]
            unfold Kernel.messages
            rw [hnew]
            rfl
          · exact messages_setRing_of_ne s (Ne.symm hm) _
    | uosRingPut m msg p =>
        by_cases hm : m = mb
        · subst hm
          cases h with
          | accepted hring hroom =>
              -- it comes in behind
              show s.messages m ++ (if true ∧ m = m then [msg] else []) = [] ++ _
              rw [if_pos ⟨rfl, rfl⟩, messages_setRing_self, messages_of_some hring]
              rfl
          | refused hring hfull hp =>
              have hin : accepted m ⟨.inr (.uosRingPut m msg p), (false : Bool)⟩ = [] := by
                simp [accepted]
              exact messages_of_same hin rfl rfl
        · -- another mailbox
          refine messages_of_same (if_neg fun hc => hm hc.2) rfl ?_
          cases h with
          | accepted hring hroom => exact messages_setRing_of_ne s (Ne.symm hm) _
          | refused hring hfull hp => rfl
    | uosRingDestroy m =>
        obtain ⟨-, rfl⟩ := h
        -- it is not this mailbox that is destroyed
        have hm : mb ≠ m := by
          rintro rfl
          exact hkept rfl
        exact messages_of_same rfl rfl (messages_setRing_of_ne s hm _)

/-! ## §7. What the callers are told. -/

/-- The message that a call has put into the mailbox, as its result says. -/
def posted (mb : Nat) : (c : Call) → c.Res → List Nat
  | .sys_mbox_post m msg, _ => if m = mb then [msg] else []
  | .sys_mbox_trypost m msg, (r : Err) => if r = .ERR_OK ∧ m = mb then [msg] else []
  | _, _ => []

/-- The message that it has got from there. -/
def fetched (mb : Nat) : (c : Call) → c.Res → List Nat
  | .sys_arch_mbox_fetch m _, (r : UInt32 × Option Nat) => if m = mb then r.2.toList else []
  | .sys_arch_mbox_tryfetch m, (r : UInt32 × Option Nat) => if m = mb then r.2.toList else []
  | _, _ => []

section Reports

variable {P : Pico} {HZ : UInt32} {c : Call} {e : Option Effect} {r : c.Res}

/-- Who waits for ever has not been refused. -/
def NotRefused (e : Effect) : Prop :=
  ∀ mb msg, e ≠ ⟨.inr (.uosRingPut mb msg .INFINITE), (false : Bool)⟩

/-- **What a call says it has posted is what it has put in.** -/
theorem posted_of_returns (mb : Nat) (he : ∀ x ∈ e, NotRefused x)
    (h : (sysArch P HZ).Returns c e.toList r) : posted mb c r = e.elim [] (accepted mb) := by
  have hout := outcome_of_returns h
  cases c with
  | sys_mbox_post m msg =>
      obtain ⟨ok, rfl⟩ := hout
      cases ok with
      -- the message would be lost, but it is never refused
      | false => exact absurd rfl (he _ rfl m msg)
      | true => simp [posted, accepted]
  | sys_mbox_trypost m msg =>
      obtain rfl := hout
      cases r with
      | ERR_OK => simp [posted, accepted]
      | ERR_MEM => rfl
  | sys_arch_sem_wait sem timeout =>
      obtain ⟨status, rfl, -⟩ := hout
      rfl
  | sys_mbox_free mb' =>
      obtain rfl := hout
      cases mb' <;> rfl
  | sys_sem_signal sem | sys_sem_free sem =>
      obtain rfl := hout
      rfl
  | _ =>
      obtain ⟨rfl, -⟩ := hout
      rfl

/-- **What it says it has fetched is what it has taken.** -/
theorem fetched_of_returns (mb : Nat) (h : (sysArch P HZ).Returns c e.toList r) :
    fetched mb c r = e.elim [] (taken mb) := by
  have hout := outcome_of_returns h
  cases c with
  | sys_mbox_post m msg =>
      obtain ⟨ok, rfl⟩ := hout
      rfl
  | sys_arch_sem_wait sem timeout =>
      obtain ⟨status, rfl, -⟩ := hout
      rfl
  | sys_mbox_free mb' =>
      obtain rfl := hout
      cases mb' <;> rfl
  | sys_mbox_trypost m msg | sys_sem_signal sem | sys_sem_free sem =>
      obtain rfl := hout
      rfl
  | _ =>
      obtain ⟨rfl, -⟩ := hout
      rfl

end Reports

/-- The looks at the clock and the statistics move no message. -/
theorem accepted_idle (mb : Nat) (e : Effect) (h : SysOp.idle e.1) : accepted mb e = [] := by
  obtain ⟨op, ans⟩ := e
  rcases op with op | op
  · rfl
  · cases op with
    | uosRingPut m msg p => exact absurd h (by simp [SysOp.idle])
    | _ => rfl

/-- Clock and statistics take no message. -/
theorem taken_idle (mb : Nat) (e : Effect) (h : SysOp.idle e.1) : taken mb e = [] := by
  obtain ⟨op, ans⟩ := e
  rcases op with op | op
  · cases op with
    | uosRingGet m p => exact absurd h (by simp [SysOp.idle])
    | _ => rfl
  · rfl

/-- The messages that are put into a mailbox. -/
def postedAccount (P : Pico) (HZ : UInt32) (mb : Nat) : (sysArch P HZ).Account Nat where
  moved := accepted mb
  report := posted mb
  effect := NotRefused
  still := accepted_idle mb
  reported _ _ _ he h := posted_of_returns mb he h

/-- Those that are taken from there. -/
def fetchedAccount (P : Pico) (HZ : UInt32) (mb : Nat) : (sysArch P HZ).Account Nat where
  moved := taken mb
  report := fetched mb
  effect _ := True
  still := taken_idle mb
  reported _ _ _ _ h := fetched_of_returns mb h

/-! ## §8. Runs of threads. -/

section Runs

variable {ι : Type} [DecidableEq ι] {P : Pico} {HZ : UInt32} {k : P.State}

/-- What a thread does. -/
abbrev SysLabel (ι : Type) : Type := Calls.Label SysOp SysOp.Ans Call Call.Res ι

/-- A state of the threads and the kernel. -/
abbrev SysState (P : Pico) (ι : Type) : Type :=
  Calls.State P.State SysOp SysOp.Ans Call Call.Res ι

/-- The threads `ι` call the functions of sys_arch.c, from the kernel's state `k` on. -/
abbrev SysRun (P : Pico) (HZ : UInt32) (k : P.State) (ls : List (SysLabel ι))
    (s : SysState P ι) : Prop :=
  Run (sysArch P HZ).Step (Calls.start k) ls s

/-- Nobody destroys the mailbox. -/
def KeepsMailbox (mb : Nat) (l : SysLabel ι) : Prop :=
  ∀ e ∈ l.effect, e.1 ≠ .inr (.uosRingDestroy mb)

instance (mb : Nat) (l : SysLabel ι) : Decidable (KeepsMailbox mb l) :=
  inferInstanceAs (Decidable (∀ e ∈ l.effect, _ ≠ _))

variable {ls : List (SysLabel ι)} {s : SysState P ι}

/-- What came in and was there is what went out and is there, in order. -/
theorem messages_of_run {mb : Nat} (hkept : ∀ l ∈ ls, KeepsMailbox mb l)
    (hrun : SysRun P HZ k ls s) :
    (P.objects k).messages mb ++ (Calls.movedBy (accepted mb) ls).map Prod.snd
      = (Calls.movedBy (taken mb) ls).map Prod.snd ++ (P.objects s.object).messages mb := by
  -- on the run: one effect more, and messages_step for it
  induction hrun with
  | nil => exact List.append_nil _
  | @snoc ls s s' l _ hs ih =>
      obtain ⟨hls, hl⟩ := List.forall_mem_append.mp hkept
      have hl := hl l (List.mem_singleton.mpr rfl)
      have ih := ih hls
      unfold Calls.movedBy at ih ⊢
      rw [List.flatMap_append, List.flatMap_append, List.map_append, List.map_append,
        ← List.append_assoc, ih, List.append_assoc, List.append_assoc, List.flatMap_singleton,
        List.flatMap_singleton]
      cases hs with
      | invoke c h => exact congrArg _ (List.append_nil _)
      | @perform i c op kont ans o h hop =>
          have hstep := messages_step (e := ⟨op, ans⟩) (P.documented _ _ _ _ hop) (hl _ rfl)
          -- the names of the threads are of no matter
          refine congrArg _ ?_
          show _ ++ ((accepted mb ⟨op, ans⟩).map (Prod.mk i)).map Prod.snd
            = ((taken mb ⟨op, ans⟩).map (Prod.mk i)).map Prod.snd ++ _
          rw [List.map_map, List.map_map]
          exact (congrArg _ (List.map_id _)).trans
            (hstep.trans (congrArg (· ++ _) (List.map_id _).symm))
      | respond h => exact congrArg _ (List.append_nil _)

/-- A kernel does not refuse who waits for ever. -/
theorem notRefused_of_step {l : SysLabel ι} {t t' : SysState P ι}
    (hs : (sysArch P HZ).Step t l t') : ∀ e ∈ l.effect, NotRefused e := by
  cases hs with
  | invoke c h | respond h => exact fun e he => absurd he nofun
  | @perform i c op kont ans o h hop =>
      rintro e he mb msg rfl
      -- the step is a put that is refused, and waits for ever
      obtain ⟨rfl, hans⟩ := Sigma.mk.inj (Option.some.inj he)
      obtain rfl := eq_of_heq hans
      have hput : RingPut mb msg .INFINITE (P.objects t.object) false (P.objects o) :=
        P.documented _ _ _ _ hop
      generalize P.objects t.object = before at hput
      generalize P.objects o = behind at hput
      cases hput with
      | refused hring hfull hp => exact hp rfl

/-- All that a thread has moved is what it has been told of, in that order, and one message
more at most, that of the call that it is in. -/
def UpToOne (told all : List Nat) (waiting : Prop) : Prop :=
  ∃ now, all = told ++ now ∧ now.length ≤ 1 ∧ (now ≠ [] → waiting)

/-- **First in, first out, as the callers see it**: the messages that come in and go out in
the run make a queue with the mailbox, and what each thread is told it has posted has come
in, and what it is told it has fetched has gone out, in the order of its calls. -/
theorem mailbox_order {mb : Nat} (hkept : ∀ l ∈ ls, KeepsMailbox mb l)
    (hrun : SysRun P HZ k ls s) :
    (P.objects k).messages mb ++ (Calls.movedBy (accepted mb) ls).map Prod.snd
        = (Calls.movedBy (taken mb) ls).map Prod.snd ++ (P.objects s.object).messages mb
      ∧ ∀ i, UpToOne (Calls.ofThread i (Calls.toldTo (posted mb) ls))
            (Calls.ofThread i (Calls.movedBy (accepted mb) ls)) (s.thread i ≠ none)
        ∧ UpToOne (Calls.ofThread i (Calls.toldTo (fetched mb) ls))
            (Calls.ofThread i (Calls.movedBy (taken mb) ls)) (s.thread i ≠ none) := by
  have hposts : ∀ l ∈ ls, (sysArch P HZ).visible l → ∀ e ∈ l.effect, NotRefused e := by
    intro l hl _
    obtain ⟨pre, t, t', post, -, -, hs, -⟩ := hrun.split_mem hl
    exact notRefused_of_step hs
  refine ⟨messages_of_run hkept hrun, fun i => ⟨?_, ?_⟩⟩
  · obtain ⟨now, hall, hnow⟩ := (postedAccount P HZ mb).in_order hrun hposts i
    refine ⟨now, hall, ?_, fun hne => (hnow.resolve_left hne).1⟩
    rcases hnow with rfl | ⟨-, e, rfl⟩
    · exact Nat.zero_le 1
    · exact accepted_length mb e
  · obtain ⟨now, hall, hnow⟩ :=
      (fetchedAccount P HZ mb).in_order hrun (fun _ _ _ _ _ => trivial) i
    refine ⟨now, hall, ?_, fun hne => (hnow.resolve_left hne).1⟩
    rcases hnow with rfl | ⟨-, e, rfl⟩
    · exact Nat.zero_le 1
    · exact taken_length mb e

/-- A message of a mailbox that nobody destroys, in the accounts. -/
def mailboxTally (P : Pico) (HZ : UInt32) (mb v : Nat) : (sysArch P HZ).Tally where
  value s := ((P.objects s).messages mb).count v
  gain e := (accepted mb e).count v
  loss e := (taken mb e).count v
  credit c r := (posted mb c r).count v
  debit c r := (fetched mb c r).count v
  effect e := e.1 ≠ .inr (.uosRingDestroy mb) ∧ NotRefused e
  call _ := True
  kept s e s' he hop := by
    rw [← List.count_append, ← List.count_append, messages_step (P.documented _ _ _ _ hop) he.1]
  credited c e r _ he hr := by
    rw [posted_of_returns mb (fun x hx => (he x hx).2) hr]
    cases e <;> rfl
  debited c e r _ he hr := by
    rw [fetched_of_returns mb hr]
    cases e <;> rfl

/-- The messages that the calls of some steps have put into the mailbox. -/
def allPosted (mb : Nat) (ls : List (SysLabel ι)) : List Nat :=
  ls.flatMap fun
    | .respond _ c r => posted mb c r
    | _ => []

/-- The messages that they have got from there. -/
def allFetched (mb : Nat) (ls : List (SysLabel ι)) : List Nat :=
  ls.flatMap fun
    | .respond _ c r => fetched mb c r
    | _ => []

omit [DecidableEq ι] in
/-- How often the results name a message is what they report of it. -/
theorem count_told (f : (c : Call) → c.Res → List Nat) (v : Nat) (ls : List (SysLabel ι)) :
    (ls.flatMap fun | .respond _ c r => f c r | _ => []).count v
      = Calls.reports (fun c r => (f c r).count v) ls := by
  induction ls with
  | nil => rfl
  | cons l ls ih =>
      rw [List.flatMap_cons, List.count_append, ih, Calls.reports_cons]
      cases l <;> rfl

/-- While the mailbox is kept, every step is in the account. -/
theorem mailbox_admits {mb v : Nat} {l : SysLabel ι} {t t' : SysState P ι}
    (hs : (sysArch P HZ).Step t l t') (hkept : KeepsMailbox mb l) :
    (mailboxTally P HZ mb v).Admits l := by
  have hrefused := notRefused_of_step hs
  cases l with
  | perform i c e => exact ⟨hkept e rfl, hrefused e rfl⟩
  | invoke i c | respond i c r => trivial

/-- **No message is lost or doubled**: what was in the mailbox and what the calls say they
have posted is what they say they have fetched and what is left. -/
theorem mailbox_conserves [Fintype ι] {mb : Nat} (hkept : ∀ l ∈ ls, KeepsMailbox mb l)
    (hrun : SysRun P HZ k ls s) (hquiet : ∀ i, s.thread i = none) :
    ((P.objects k).messages mb ++ allPosted mb ls).Perm
      (allFetched mb ls ++ (P.objects s.object).messages mb) := by
  rw [List.perm_iff_count]
  intro v
  have hadmits : ∀ l ∈ ls, (sysArch P HZ).visible l → (mailboxTally P HZ mb v).Admits l := by
    intro l hl _
    obtain ⟨pre, t, t', post, -, -, hs, -⟩ := hrun.split_mem hl
    exact mailbox_admits hs (hkept l hl)
  have hbalance := (mailboxTally P HZ mb v).balance_quiet hrun hquiet hadmits
  rw [List.count_append, List.count_append]
  exact (congrArg (_ + ·) (count_told (posted mb) v ls)).trans
    (hbalance.trans (congrArg (· + _) (count_told (fetched mb) v ls).symm))

/-- Semaphores without a token, mailboxes with room for one message. -/
def emptyKernel : documentedKernel.State := ⟨fun _ => some 0, fun _ => some ⟨1, []⟩⟩

/-- One thread waits for a message, the other one posts it. -/
def mailboxSteps : List (SysLabel Bool) :=
  [.invoke false (.sys_arch_mbox_fetch 3 0),
    .perform false (.sys_arch_mbox_fetch 3 0) ⟨.inl .jiffies, (5 : UInt32)⟩,
    .invoke true (.sys_mbox_post 3 7),
    .perform true (.sys_mbox_post 3 7) ⟨.inr (.uosRingPut 3 7 .INFINITE), true⟩,
    .perform false (.sys_arch_mbox_fetch 3 0) ⟨.inl (.uosRingGet 3 .INFINITE), some 7⟩,
    .respond true (.sys_mbox_post 3 7) (),
    .perform false (.sys_arch_mbox_fetch 3 0) ⟨.inl .jiffies, (6 : UInt32)⟩,
    .respond false (.sys_arch_mbox_fetch 3 0) (waited 100 0 (6 - 5), some 7)]

/-- They are a run, and all calls have returned. -/
theorem mailboxSteps_run :
    ∃ s, SysRun documentedKernel 100 emptyKernel mailboxSteps s ∧ ∀ i, s.thread i = none := by
  refine ⟨_, Run.cons (.invoke _ rfl) <| Run.cons (.perform rfl rfl) <|
    Run.cons (.invoke _ rfl) <| Run.cons (.perform rfl (.accepted rfl Nat.one_pos)) <|
    Run.cons (.perform rfl (.taken rfl)) <| Run.cons (.respond rfl) <|
    Run.cons (.perform rfl rfl) <| Run.cons (.respond rfl) .nil, ?_⟩
  rintro (_ | _) <;> rfl

/-- Nobody frees the mailbox. -/
theorem mailboxSteps_keeps : ∀ l ∈ mailboxSteps, KeepsMailbox 3 l := by
  decide

/-- One thread posts two messages, the second one twice as there is no room at first; the
other one fetches them. -/
def refusedSteps : List (SysLabel Bool) :=
  [.invoke true (.sys_mbox_trypost 3 7),
    .perform true (.sys_mbox_trypost 3 7) ⟨.inr (.uosRingPut 3 7 (.MS 0)), true⟩,
    .respond true (.sys_mbox_trypost 3 7) .ERR_OK,
    .invoke true (.sys_mbox_trypost 3 8),
    .perform true (.sys_mbox_trypost 3 8) ⟨.inr (.uosRingPut 3 8 (.MS 0)), false⟩,
    .invoke false (.sys_arch_mbox_tryfetch 3),
    .perform false (.sys_arch_mbox_tryfetch 3) ⟨.inl (.uosRingGet 3 (.MS 0)), some 7⟩,
    .respond true (.sys_mbox_trypost 3 8) .ERR_MEM,
    .respond false (.sys_arch_mbox_tryfetch 3) (0, some 7),
    .invoke true (.sys_mbox_trypost 3 8),
    .perform true (.sys_mbox_trypost 3 8) ⟨.inr (.uosRingPut 3 8 (.MS 0)), true⟩,
    .respond true (.sys_mbox_trypost 3 8) .ERR_OK,
    .invoke false (.sys_arch_mbox_tryfetch 3),
    .perform false (.sys_arch_mbox_tryfetch 3) ⟨.inl (.uosRingGet 3 (.MS 0)), some 8⟩,
    .respond false (.sys_arch_mbox_tryfetch 3) (0, some 8)]

/-- They are a run, and all calls have returned. -/
theorem refusedSteps_run :
    ∃ s, SysRun documentedKernel 100 emptyKernel refusedSteps s ∧ ∀ i, s.thread i = none := by
  refine ⟨_, Run.cons (.invoke _ rfl) <| Run.cons (.perform rfl (.accepted rfl Nat.one_pos)) <|
    Run.cons (.respond rfl) <| Run.cons (.invoke _ rfl) <|
    Run.cons (.perform rfl (.refused rfl (Nat.le_refl 1) nofun)) <| Run.cons (.invoke _ rfl) <|
    Run.cons (.perform rfl (.taken rfl)) <| Run.cons (.respond rfl) <|
    Run.cons (.respond rfl) <| Run.cons (.invoke _ rfl) <|
    Run.cons (.perform rfl (.accepted rfl Nat.one_pos)) <| Run.cons (.respond rfl) <|
    Run.cons (.invoke _ rfl) <| Run.cons (.perform rfl (.taken rfl)) <|
    Run.cons (.respond rfl) .nil, ?_⟩
  rintro (_ | _) <;> rfl

/-- What came in is 7 and 8, in that order, and so is what went out. -/
theorem mailbox_order_refused : ∃ s : SysState documentedKernel Bool,
    SysRun documentedKernel 100 emptyKernel refusedSteps s
      ∧ (Calls.movedBy (accepted 3) refusedSteps).map Prod.snd
        = (Calls.movedBy (taken 3) refusedSteps).map Prod.snd ++ Kernel.messages s.object 3
      ∧ Calls.ofThread true (Calls.movedBy (accepted 3) refusedSteps) = [7, 8]
      ∧ Calls.ofThread false (Calls.movedBy (taken 3) refusedSteps) = [7, 8] := by
  obtain ⟨s, hrun, hquiet⟩ := refusedSteps_run
  have hkept : ∀ l ∈ refusedSteps, KeepsMailbox 3 l := by
    decide
  obtain ⟨hfifo, hthreads⟩ := mailbox_order hkept hrun
  refine ⟨s, hrun, hfifo, ?_, ?_⟩
  · obtain ⟨now, hall, -, hnow⟩ := (hthreads true).1
    rw [hall, not_imp_comm.mp hnow (not_not_intro (hquiet true))]
    rfl
  · obtain ⟨now, hall, -, hnow⟩ := (hthreads false).2
    rw [hall, not_imp_comm.mp hnow (not_not_intro (hquiet false))]
    rfl

/-- What was posted is what was fetched. -/
theorem mailbox_conserves_handover : ∃ s : SysState documentedKernel Bool,
    SysRun documentedKernel 100 emptyKernel mailboxSteps s
      ∧ [7].Perm ([7] ++ Kernel.messages s.object 3) := by
  obtain ⟨s, hrun, hquiet⟩ := mailboxSteps_run
  exact ⟨s, hrun, mailbox_conserves mailboxSteps_keeps hrun hquiet⟩

/-! ## §9. A semaphore. -/

/-- What an effect adds to the count of the semaphore. -/
def tokensIn (sem : Nat) : Effect → Nat
  | ⟨.inr (.nosSemaSignal m), _⟩ => if m = sem then 1 else 0
  | ⟨.inr (.nosSemaCreate count), (ans : Option Nat)⟩ => if ans = some sem then count.toNat else 0
  | _ => 0

/-- What it takes from there. -/
def tokensOut (sem : Nat) : Effect → Nat
  | ⟨.inl (.nosSemaWait m _), (status : Int)⟩ => if m = sem ∧ Obtained status then 1 else 0
  | _ => 0

/-- What a call has added to the count, as its result says. -/
def signalled (sem : Nat) : (c : Call) → c.Res → Nat
  | .sys_sem_signal m, _ => if m = sem then 1 else 0
  | .sys_sem_new count, (r : Err × Option Nat) => if r.2 = some sem then count.toNat else 0
  | _, _ => 0

/-- Whether it has got the semaphore. -/
def obtained (sem : Nat) : (c : Call) → c.Res → Nat
  | .sys_arch_sem_wait m _, (w : UInt32) => if m = sem ∧ w ≠ SYS_ARCH_TIMEOUT then 1 else 0
  | _, _ => 0

/-- The count of a semaphore, 0 where there is none. -/
def Kernel.count (s : Kernel) (sem : Nat) : Nat := (s.semas sem).getD 0

/-- The count of a semaphore that is there. -/
theorem count_of_some {s : Kernel} {sem n : Nat} (h : s.semas sem = some n) : s.count sem = n := by
  unfold Kernel.count
  rw [h, Option.getD_some]

@[simp] theorem count_setRing (s : Kernel) (mb : Nat) (r : Option Ring) (sem : Nat) :
    (s.setRing mb r).count sem = s.count sem := rfl

/-- The new count. -/
@[simp] theorem count_setSema_self (s : Kernel) (sem : Nat) (n : Option Nat) :
    (s.setSema sem n).count sem = n.getD 0 := by
  show (Function.update s.semas sem n sem).getD 0 = _
  rw [Function.update_self]

/-- The other semaphores are as they were. -/
theorem count_setSema_of_ne (s : Kernel) {sem m : Nat} (h : sem ≠ m) (n : Option Nat) :
    (s.setSema m n).count sem = s.count sem := by
  show (Function.update s.semas m n sem).getD 0 = _
  rw [Function.update_of_ne h]
  rfl

/-- An effect that has nothing to do with the semaphore. -/
theorem count_of_same {s s' : Kernel} {e : Effect} {sem : Nat} (hin : tokensIn sem e = 0)
    (hout : tokensOut sem e = 0) (h : s'.count sem = s.count sem) :
    s.count sem + tokensIn sem e = tokensOut sem e + s'.count sem := by
  rw [hin, hout, h, Nat.add_zero, Nat.zero_add]

/-- **One effect on a semaphore.** -/
theorem count_step {s s' : Kernel} {e : Effect} {sem : Nat} (h : kernelEnv s e.1 e.2 s')
    (hkept : e.1 ≠ .inr (.nosSemaDestroy sem)) :
    s.count sem + tokensIn sem e = tokensOut sem e + s'.count sem := by
  obtain ⟨op, ans⟩ := e
  rcases op with op | op
  · cases op with
    | jiffies =>
        obtain rfl : s' = s := h
        exact count_of_same rfl rfl rfl
    | uosRingGet m p => exact count_of_same rfl rfl (by cases h <;> rfl)
    | nosSemaWait m p =>
        by_cases hm : m = sem
        · subst hm
          cases h with
          | obtained hcount hs =>
              -- one token less
              have hout : tokensOut m ⟨.inl (.nosSemaWait m p), ans⟩ = 1 := if_pos ⟨rfl, hs⟩
              have hin : tokensIn m ⟨.inl (.nosSemaWait m p), ans⟩ = 0 := rfl
              rw [hout, hin, count_of_some hcount, count_setSema_self, Option.getD_some]
              omega
          | refused hcount hs hp =>
              exact count_of_same rfl (if_neg fun hc => hs hc.2) rfl
        · -- another semaphore
          refine count_of_same rfl (if_neg fun hc => hm hc.1) ?_
          cases h with
          | obtained hcount hs => exact count_setSema_of_ne s (Ne.symm hm) _
          | refused hcount hs hp => rfl
  · cases op with
    | statsInc | statsDec =>
        obtain rfl : s' = s := h
        exact count_of_same rfl rfl rfl
    | uosRingCreate size =>
        rcases h with ⟨-, rfl⟩ | ⟨m, -, -, rfl⟩ <;> exact count_of_same rfl rfl rfl
    | uosRingPut m msg p => exact count_of_same rfl rfl (by cases h <;> rfl)
    | uosRingDestroy m =>
        obtain ⟨-, rfl⟩ := h
        exact count_of_same rfl rfl rfl
    | nosSemaCreate count =>
        rcases h with ⟨hans, rfl⟩ | ⟨m, hans, hnew, rfl⟩
        · -- the kernel had no semaphore left
          have hnone : ¬ ans = some sem := fun hc => Option.some_ne_none sem (hc.symm.trans hans)
          exact count_of_same (if_neg hnone) rfl rfl
        · by_cases hm : m = sem
          · -- it had no tokens before it was there
            subst hm
            have hin : tokensIn m ⟨.inr (.nosSemaCreate count), ans⟩ = count.toNat := if_pos hans
            have hnone : s.count m = 0 := by
              unfold Kernel.count
              rw [hnew]
              rfl
            rw [hin, hnone, count_setSema_self]
            rfl
          · refine count_of_same (if_neg fun hc => hm ?_) rfl (count_setSema_of_ne s (Ne.symm hm) _)
            exact Option.some.inj (hans.symm.trans hc)
    | nosSemaSignal m =>
        obtain ⟨n, hcount, rfl⟩ := h
        by_cases hm : m = sem
        · subst hm
          show s.count m + (if m = m then 1 else 0) = 0 + _
          rw [if_pos rfl, count_of_some hcount, count_setSema_self, Option.getD_some, Nat.zero_add]
        · exact count_of_same (if_neg hm) rfl (count_setSema_of_ne s (Ne.symm hm) _)
    | nosSemaDestroy m =>
        obtain ⟨-, rfl⟩ := h
        -- it is not this semaphore that is destroyed
        have hm : sem ≠ m := by
          rintro rfl
          exact hkept rfl
        exact count_of_same rfl rfl (count_setSema_of_ne s hm _)

/-- A time is told from a timeout, if the timeout asked for is not the longest. -/
theorem waited_ne_timeout {HZ timeout : UInt32} (h : timeout ≠ SYS_ARCH_TIMEOUT) (ticks : UInt32) :
    waited HZ timeout ticks ≠ SYS_ARCH_TIMEOUT := by
  intro heq
  have hle : (waited HZ timeout ticks).toNat ≤ timeout.toNat := by
    rw [toNat_waited]
    exact Nat.min_le_left _ _
  rw [heq] at hle
  have hmax : timeout ≤ SYS_ARCH_TIMEOUT :=
    UInt32.le_iff_toNat_le.mpr (Nat.le_of_lt_succ timeout.toNat_lt)
  exact h (UInt32.le_antisymm hmax hle)

section Reports

variable {P : Pico} {HZ : UInt32} {sem : Nat} {c : Call} {e : Option Effect} {r : c.Res}

/-- **What a call says it has added is what it has added.** -/
theorem signalled_of_returns (h : (sysArch P HZ).Returns c e.toList r) :
    signalled sem c r = e.elim 0 (tokensIn sem) := by
  have hout := outcome_of_returns h
  cases c with
  | sys_arch_sem_wait m timeout =>
      obtain ⟨status, rfl, -⟩ := hout
      rfl
  | sys_mbox_post mb msg =>
      obtain ⟨ok, rfl⟩ := hout
      rfl
  | sys_mbox_free mb =>
      obtain rfl := hout
      cases mb <;> rfl
  | sys_sem_signal m | sys_sem_free m | sys_mbox_trypost mb msg =>
      obtain rfl := hout
      rfl
  | _ =>
      obtain ⟨rfl, -⟩ := hout
      rfl

/-- **What it says it has got is what it has taken**, unless the longest timeout hides it. -/
theorem obtained_of_returns (hc : c ≠ .sys_arch_sem_wait sem SYS_ARCH_TIMEOUT)
    (h : (sysArch P HZ).Returns c e.toList r) : obtained sem c r = e.elim 0 (tokensOut sem) := by
  have hout := outcome_of_returns h
  cases c with
  | sys_arch_sem_wait m timeout =>
      obtain ⟨status, rfl, hres⟩ := hout
      by_cases hm : m = sem
      · subst hm
        by_cases hs : Obtained status
        · -- it waited for a time, which is no timeout
          rw [if_pos hs] at hres
          obtain ⟨ticks, rfl⟩ := hres
          have htimeout : timeout ≠ SYS_ARCH_TIMEOUT := by
            rintro rfl
            exact hc rfl
          exact (if_pos ⟨rfl, waited_ne_timeout htimeout ticks⟩).trans (if_pos ⟨rfl, hs⟩).symm
        · rw [if_neg hs] at hres
          exact (if_neg fun h => h.2 hres).trans (if_neg fun h => hs h.2).symm
      · exact (if_neg fun h => hm h.1).trans (if_neg fun h => hm h.1).symm
  | sys_mbox_post mb msg =>
      obtain ⟨ok, rfl⟩ := hout
      rfl
  | sys_mbox_free mb =>
      obtain rfl := hout
      cases mb <;> rfl
  | sys_sem_signal m | sys_sem_free m | sys_mbox_trypost mb msg =>
      obtain rfl := hout
      rfl
  | _ =>
      obtain ⟨rfl, -⟩ := hout
      rfl

end Reports

/-- A semaphore that nobody destroys, in the accounts. -/
def semaphoreTally (P : Pico) (HZ : UInt32) (sem : Nat) : (sysArch P HZ).Tally where
  value s := (P.objects s).count sem
  gain := tokensIn sem
  loss := tokensOut sem
  credit := signalled sem
  debit := obtained sem
  effect e := e.1 ≠ .inr (.nosSemaDestroy sem)
  call c := c ≠ .sys_arch_sem_wait sem SYS_ARCH_TIMEOUT
  kept _ _ _ he hop := count_step (P.documented _ _ _ _ hop) he
  credited _ _ _ _ _ hr := signalled_of_returns hr
  debited _ _ _ hc _ hr := obtained_of_returns hc hr

/-- Nobody destroys the semaphore, or waits for it with the longest timeout of all. -/
def KeepsSemaphore (sem : Nat) : SysLabel ι → Prop
  | .perform _ _ e => e.1 ≠ .inr (.nosSemaDestroy sem)
  | .respond _ c _ => c ≠ .sys_arch_sem_wait sem SYS_ARCH_TIMEOUT
  | .invoke _ _ => True

instance (sem : Nat) : (l : SysLabel ι) → Decidable (KeepsSemaphore sem l)
  | .perform _ _ _ => inferInstanceAs (Decidable (_ ≠ _))
  | .respond _ _ _ => inferInstanceAs (Decidable (_ ≠ _))
  | .invoke _ _ => .isTrue trivial

/-- **No token is lost or doubled**: the count with what the calls have added is what the
waits report that they got, and the count that is left. -/
theorem semaphore_conserves [Fintype ι] {sem : Nat} (hkept : ∀ l ∈ ls, KeepsSemaphore sem l)
    (hrun : SysRun P HZ k ls s) (hquiet : ∀ i, s.thread i = none) :
    (P.objects k).count sem + Calls.reports (signalled sem) ls
      = Calls.reports (obtained sem) ls + (P.objects s.object).count sem := by
  refine (semaphoreTally P HZ sem).balance_quiet hrun hquiet fun l hl _ => ?_
  have hl := hkept l hl
  cases l <;> exact hl

/-- One thread waits for a token, the other one signals. -/
def semaphoreSteps : List (SysLabel Bool) :=
  [.invoke true (.sys_arch_sem_wait 3 50),
    .perform true (.sys_arch_sem_wait 3 50) ⟨.inl .jiffies, (5 : UInt32)⟩,
    .invoke false (.sys_sem_signal 3),
    .perform false (.sys_sem_signal 3) ⟨.inr (.nosSemaSignal 3), ()⟩,
    .perform true (.sys_arch_sem_wait 3 50) ⟨.inl (.nosSemaWait 3 (.MS 50)), (0 : Int)⟩,
    .perform true (.sys_arch_sem_wait 3 50) ⟨.inl .jiffies, (8 : UInt32)⟩,
    .respond true (.sys_arch_sem_wait 3 50) (waited 100 50 (8 - 5)),
    .respond false (.sys_sem_signal 3) ()]

/-- They are a run, and all calls have returned. -/
theorem semaphoreSteps_run :
    ∃ s, SysRun documentedKernel 100 emptyKernel semaphoreSteps s ∧ ∀ i, s.thread i = none := by
  have hobtained : Obtained 0 := Int.lt_irrefl 0
  refine ⟨_, Run.cons (.invoke _ rfl) <| Run.cons (.perform rfl rfl) <|
    Run.cons (.invoke _ rfl) <| Run.cons (.perform rfl ⟨0, rfl, rfl⟩) <|
    Run.cons (.perform rfl (.obtained rfl hobtained)) <| Run.cons (.perform rfl rfl) <|
    Run.cons (.respond rfl) <| Run.cons (.respond rfl) .nil, ?_⟩
  rintro (_ | _) <;> rfl

/-- The token that was signalled is the one that was got. -/
theorem semaphore_conserves_handover : ∃ s : SysState documentedKernel Bool,
    SysRun documentedKernel 100 emptyKernel semaphoreSteps s
      ∧ 0 + 1 = 1 + Kernel.count s.object 3 := by
  obtain ⟨s, hrun, hquiet⟩ := semaphoreSteps_run
  have hkept : ∀ l ∈ semaphoreSteps, KeepsSemaphore 3 l := by
    decide
  exact ⟨s, hrun, semaphore_conserves hkept hrun hquiet⟩

/-! ## §10. The calls as single steps. -/

/-- The one operation of a call that has an effect. -/
def Call.effectOp : Call → Option SysOp
  | .sys_sem_new count => some (.inr (.nosSemaCreate count))
  | .sys_sem_signal sem => some (.inr (.nosSemaSignal sem))
  | .sys_arch_sem_wait sem timeout => some (.inl (.nosSemaWait sem (patience timeout)))
  | .sys_sem_free sem => some (.inr (.nosSemaDestroy sem))
  | .sys_mbox_new size =>
      some (.inr (.uosRingCreate (if size = 0 then DEFAULT_MBOX_SIZE else size)))
  | .sys_mbox_post mb msg => some (.inr (.uosRingPut mb msg .INFINITE))
  | .sys_mbox_trypost mb msg => some (.inr (.uosRingPut mb msg (.MS 0)))
  | .sys_arch_mbox_fetch mb timeout => some (.inl (.uosRingGet mb (patience timeout)))
  | .sys_arch_mbox_tryfetch mb => some (.inl (.uosRingGet mb (.MS 0)))
  | .sys_mbox_free mb => mb.map fun mb => .inr (.uosRingDestroy mb)

/-- Beside the clock it calls the kernel for its wait only. -/
theorem sys_arch_sem_wait_ops (HZ : UInt32) (sem : Nat) (timeout : UInt32) :
    (sys_arch_sem_wait HZ sem timeout).AllOps fun op =>
      SysOp.idle (.inl op) ∨ (Call.sys_arch_sem_wait sem timeout).effectOp = some (.inl op) := by
  refine ⟨.inl rfl, fun start => ⟨.inr rfl, fun (status : Int) => ?_⟩⟩
  show Program.AllOps _ (if status > 0 then _ else _)
  split
  · trivial
  · exact ⟨.inl rfl, fun _ => trivial⟩

/-- Whatever else a call does leaves the kernel's objects alone. -/
theorem Call.body_ops (HZ : UInt32) (c : Call) :
    (c.body HZ).AllOps fun op => op.idle ∨ c.effectOp = some op := by
  cases c with
  | sys_sem_new count => exact ⟨.inr rfl, fun (sem : Option Nat) => by cases sem <;> trivial⟩
  | sys_sem_signal sem | sys_sem_free sem => exact ⟨.inr rfl, fun _ => trivial⟩
  | sys_arch_sem_wait sem timeout =>
      exact (sys_arch_sem_wait_ops HZ sem timeout).inl
  | sys_mbox_new size =>
      refine ⟨.inr rfl, fun (mb : Option Nat) => ?_⟩
      cases mb with
      | none => trivial
      | some mb => exact ⟨.inl rfl, fun _ => trivial⟩
  | sys_mbox_post mb msg => exact ⟨.inr rfl, fun _ => trivial⟩
  | sys_mbox_trypost mb msg => exact ⟨.inr rfl, fun (ok : Bool) => by cases ok <;> trivial⟩
  | sys_arch_mbox_fetch mb timeout =>
      refine ⟨.inl rfl, fun start => ⟨.inr rfl, fun (got : Option Nat) => ?_⟩⟩
      cases got with
      | none => trivial
      | some msg => exact ⟨.inl rfl, fun _ => trivial⟩
  | sys_arch_mbox_tryfetch mb =>
      exact ⟨.inr rfl, fun (got : Option Nat) => by cases got <;> trivial⟩
  | sys_mbox_free mb =>
      cases mb with
      | none => trivial
      | some mb => exact ⟨.inr rfl, fun _ => ⟨.inl rfl, fun _ => trivial⟩⟩

/-- What lwIP is promised: between its start and its end a call acts on the kernel's
objects once, as its name says, and returns what became of it. -/
inductive SpecStep (HZ : UInt32) : Calls.Atomic Kernel SysOp SysOp.Ans Call ι → SysLabel ι →
    Calls.Atomic Kernel SysOp SysOp.Ans Call ι → Prop
  | invoke {a : Calls.Atomic Kernel SysOp SysOp.Ans Call ι} {i : ι} (c : Call)
      (h : a.call i = none) :
      SpecStep HZ a (.invoke i c) ⟨a.object, Function.update a.call i (some (c, none))⟩
  | perform {a : Calls.Atomic Kernel SysOp SysOp.Ans Call ι} {i : ι} {c : Call} {e : Effect}
      {o : Kernel} (h : a.call i = some (c, none)) (hc : c.effectOp = some e.1)
      (hop : kernelEnv a.object e.1 e.2 o) :
      SpecStep HZ a (.perform i c e) ⟨o, Function.update a.call i (some (c, some e))⟩
  | respond {a : Calls.Atomic Kernel SysOp SysOp.Ans Call ι} {i : ι} {c : Call}
      {e : Option Effect} {r : c.Res} (h : a.call i = some (c, e)) (hr : c.Outcome HZ e r) :
      SpecStep HZ a (.respond i c r) ⟨a.object, Function.update a.call i none⟩

/-- The kernel's objects, with the calls. -/
def seen (P : Pico) (a : Calls.Atomic P.State SysOp SysOp.Ans Call ι) :
    Calls.Atomic Kernel SysOp SysOp.Ans Call ι := ⟨P.objects a.object, a.call⟩

/-- **A step with its effect at once** is a step of the specification. -/
theorem spec_of_atomic {a a' : Calls.Atomic P.State SysOp SysOp.Ans Call ι} {l : SysLabel ι}
    (h : (sysArch P HZ).AtomicStep a l a') : SpecStep HZ (seen P a) l (seen P a') := by
  cases h with
  | invoke c h => exact .invoke c h
  | @perform i c e o h hc hop =>
      obtain ⟨tr, m, hreach, heffect⟩ := hc
      have he : e ∈ Program.effects (sysArch P HZ).idle tr := by
        rw [heffect]
        exact List.mem_singleton.mpr rfl
      obtain ⟨hmem, hidle⟩ := List.mem_filter.mp he
      refine .perform h ?_ (P.documented _ _ _ _ hop)
      rcases hreach.allOps (c.body_ops HZ) e hmem with hbad | hc
      · have hbad : (sysArch P HZ).idle e.1 = true := hbad
        rw [hbad] at hidle
        exact absurd hidle (by decide)
      · exact hc
  | respond h hr => exact .respond h (outcome_of_returns hr)

/-- **The threads see the calls as single steps**: every run, less the looks at the clock
and the statistics, is a run of what lwIP is promised. -/
theorem sys_arch_refines (hrun : SysRun P HZ k ls s) :
    ∃ a, Run (SpecStep HZ) (Calls.Atomic.start (P.objects k)) (ls.filter (sysArch P HZ).visible) a
      ∧ a.object = P.objects s.object
      ∧ ∀ i, (a.call i).map Prod.fst = (s.thread i).map Sigma.fst := by
  obtain ⟨a, hatomic, hsim⟩ := Calls.linearizable hrun
  have hspec : ∀ (a : Calls.Atomic P.State SysOp SysOp.Ans Call ι) l a' b, b = seen P a →
      (sysArch P HZ).AtomicStep a l a' → ∃ b', SpecStep HZ b l b' ∧ b' = seen P a' := by
    rintro a l a' _ rfl hstep
    exact ⟨_, spec_of_atomic hstep, rfl⟩
  obtain ⟨_, hrun', rfl⟩ := Run.simulate hspec rfl hatomic
  refine ⟨_, hrun', congrArg P.objects hsim.object, fun i => ?_⟩
  have hi := hsim.calls i
  show (a.call i).map Prod.fst = _
  generalize a.call i = x at hi
  generalize s.thread i = t at hi
  cases hi <;> rfl

/-- The token is handed over in two steps. -/
theorem sys_arch_refines_handover : ∃ s : SysState documentedKernel Bool,
    SysRun documentedKernel 100 emptyKernel semaphoreSteps s
      ∧ ∃ a, Run (SpecStep 100) (Calls.Atomic.start emptyKernel)
          (semaphoreSteps.filter (sysArch documentedKernel 100).visible) a
        ∧ a.object = s.object ∧ ∀ i, (a.call i).map Prod.fst = (s.thread i).map Sigma.fst := by
  obtain ⟨s, hrun, -⟩ := semaphoreSteps_run
  exact ⟨s, hrun, sys_arch_refines hrun⟩

end Runs

end PicoosLwip.SysArch
