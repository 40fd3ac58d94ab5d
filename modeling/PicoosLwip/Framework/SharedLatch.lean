/-
  PicoosLwip.Framework.SharedLatch — threads that share one address latch.

  A device with indirect registers has one latch: some operations SELECT a
  register, others ACCESS the register selected last, whoever selected it.
  Threads run `Program`s and interleave at single operations.  A thread means
  its accesses for the register that it selected itself.

    * `Pending p`   — `p` may still access before it selects again;
    * `Respects`    — a step that selects leaves every other pending thread's
                      register in place;
    * `Uses`        — a discipline for one program alone: which registers it
                      accesses, and never one it has not selected.

  Main results:
    * `agrees_of_run` — along steps that respect each other, the latch holds
      the register of every pending thread;
    * `access_sound`  — so an access reaches the register that the accessing
      thread selected last, which is one its discipline lists;
    * `disturbed_of_not_respects` — a step that does not respect the others has a
      continuation in which an access reaches another register.
-/
import PicoosLwip.Framework.Run
import PicoosLwip.Framework.Program

namespace PicoosLwip.Framework

/-- What operations do to the latch. -/
structure LatchUse (Op Reg : Type) where
  /-- The register that the operation selects. -/
  selects : Op → Option Reg
  /-- The operation reads or writes the selected register. -/
  accesses : Op → Prop

namespace LatchUse

variable {Op Reg : Type} {Ans : Op → Type} {α β : Type} (L : LatchUse Op Reg)

/-- `op` after `sel` was selected. -/
def selectedAfter (op : Op) (sel : Option Reg) : Option Reg := (L.selects op).or sel

@[simp] theorem selectedAfter_none {op : Op} (h : L.selects op = none) (sel : Option Reg) :
    L.selectedAfter op sel = sel := by
  simp [selectedAfter, h]

@[simp] theorem selectedAfter_some {op : Op} {r : Reg} (h : L.selects op = some r)
    (sel : Option Reg) : L.selectedAfter op sel = some r := by
  simp [selectedAfter, h]

/-! ## §1. One program. -/

/-- The program may access before it selects again. -/
def Pending : Program Op Ans α → Prop
  | .ret _ => False
  | .call op k => L.accesses op ∨ (L.selects op = none ∧ ∃ a, Pending (k a))

/-- With `sel` selected last, the program accesses a register only after it has
selected it, and only as `allowed` lists it. -/
def Uses (allowed : Reg → Op → Prop) : Option Reg → Program Op Ans α → Prop
  | _, .ret _ => True
  | sel, .call op k =>
      (L.accesses op → ∃ r, sel = some r ∧ allowed r op)
        ∧ ∀ a, Uses allowed (L.selectedAfter op sel) (k a)

variable {L} {allowed : Reg → Op → Prop}

/-- Nothing is accessed. -/
theorem Uses.ret (sel : Option Reg) (a : α) :
    L.Uses allowed sel (.ret a : Program Op Ans α) := trivial

/-- An access goes to the register that is selected. -/
theorem Uses.call {sel : Option Reg} {op : Op} {k : Ans op → Program Op Ans α}
    (hacc : L.accesses op → ∃ r, sel = some r ∧ allowed r op)
    (hk : ∀ a, L.Uses allowed (L.selectedAfter op sel) (k a)) :
    L.Uses allowed sel (.call op k) := ⟨hacc, hk⟩

/-- An operation that does not access needs no selection. -/
theorem Uses.perform {sel : Option Reg} {op : Op} (hop : ¬ L.accesses op) :
    L.Uses allowed sel (.perform op : Program Op Ans (Ans op)) :=
  Uses.call (fun h => absurd h hop) fun a => Uses.ret _ a

/-- A program, followed by programs that select for themselves. -/
theorem Uses.bind {sel : Option Reg} {p : Program Op Ans α} {f : α → Program Op Ans β}
    (hp : L.Uses allowed sel p) (hf : ∀ a sel', L.Uses allowed sel' (f a)) :
    L.Uses allowed sel (p >>= f) := by
  induction p generalizing sel with
  | ret a =>
      rw [Program.ret_bind]
      exact hf a sel
  | call op k ih =>
      rw [Program.call_bind]
      exact Uses.call hp.1 fun a => ih a (hp.2 a)

/-- More may be allowed. -/
theorem Uses.mono {allowed' : Reg → Op → Prop} (hle : ∀ r op, allowed r op → allowed' r op)
    {sel : Option Reg} {p : Program Op Ans α} (hp : L.Uses allowed sel p) :
    L.Uses allowed' sel p := by
  induction p generalizing sel with
  | ret a => exact Uses.ret sel a
  | call op k ih =>
      refine Uses.call ?_ fun a => ih a (hp.2 a)
      intro hacc
      obtain ⟨r, hr, hallowed⟩ := hp.1 hacc
      exact ⟨r, hr, hle r op hallowed⟩

/-- A program that has selected nothing is not pending. -/
theorem Uses.not_pending {p : Program Op Ans α} (hp : L.Uses allowed none p) :
    ¬ L.Pending p := by
  induction p with
  | ret a => exact id
  | call op k ih =>
      intro hpend
      rcases hpend with hacc | ⟨hnone, a, hpend⟩
      · obtain ⟨r, hr, -⟩ := hp.1 hacc
        exact absurd hr (by simp)
      · have hka := hp.2 a
        rw [selectedAfter_none L hnone] at hka
        exact ih a hka hpend

end LatchUse

/-! ## §2. Threads. -/

/-- Programs that share a latch. -/
structure Threads (Op : Type) (Ans : Op → Type) (Reg ι : Type) (α : ι → Type) where
  /-- What is left of each thread's program. -/
  prog : ∀ i, Program Op Ans (α i)
  /-- The device's latch. -/
  latch : Option Reg
  /-- The register each thread selected last. -/
  selected : ι → Option Reg

namespace Threads

variable {Op Reg ι : Type} {Ans : Op → Type} {α : ι → Type} [DecidableEq ι]

/-- Nobody has selected anything yet; the latch holds what it held before. -/
def start (prog : ∀ i, Program Op Ans (α i)) (latch : Option Reg) : Threads Op Ans Reg ι α :=
  ⟨prog, latch, fun _ => none⟩

variable (L : LatchUse Op Reg)

/-- Thread `i` performs `op` and goes on as `p`. -/
def advance (s : Threads Op Ans Reg ι α) (i : ι) (op : Op) (p : Program Op Ans (α i)) :
    Threads Op Ans Reg ι α where
  prog := Function.update s.prog i p
  latch := L.selectedAfter op s.latch
  selected := Function.update s.selected i (L.selectedAfter op (s.selected i))

/-- One thread performs its next operation, with any answer. -/
def Step (s : Threads Op Ans Reg ι α) (l : ι × Op) (s' : Threads Op Ans Reg ι α) : Prop :=
  ∃ k a, s.prog l.1 = .call l.2 k ∧ s' = s.advance L l.1 l.2 (k a)

/-- The step does not take the latch from another thread that is about to
access: if it selects a register, every other pending thread wants the same. -/
def Respects (s : Threads Op Ans Reg ι α) (l : ι × Op) : Prop :=
  ∀ r, L.selects l.2 = some r → ∀ j, j ≠ l.1 → L.Pending (s.prog j) → s.selected j = some r

/-- A step that respects the other threads. -/
def RespectfulStep (s : Threads Op Ans Reg ι α) (l : ι × Op)
    (s' : Threads Op Ans Reg ι α) : Prop :=
  Step L s l s' ∧ Respects L s l

/-- The latch holds the register of every pending thread. -/
def Agrees (s : Threads Op Ans Reg ι α) : Prop :=
  ∀ i, L.Pending (s.prog i) → s.latch = s.selected i

/-- Every thread keeps to its discipline from here on. -/
def Disciplined (allowed : ι → Reg → Op → Prop) (s : Threads Op Ans Reg ι α) : Prop :=
  ∀ i, L.Uses (allowed i) (s.selected i) (s.prog i)

variable {L} {allowed : ι → Reg → Op → Prop} {s s' : Threads Op Ans Reg ι α}

section Advance

variable {i j : ι} {op : Op} {p : Program Op Ans (α i)}

@[simp] theorem advance_latch : (s.advance L i op p).latch = L.selectedAfter op s.latch := rfl

@[simp] theorem advance_prog_self : (s.advance L i op p).prog i = p := by
  show Function.update s.prog i p i = p
  rw [Function.update_self]

@[simp] theorem advance_selected_self :
    (s.advance L i op p).selected i = L.selectedAfter op (s.selected i) :=
  Function.update_self i _ s.selected

/-- The other threads are where they were. -/
theorem advance_prog_of_ne (hj : j ≠ i) : (s.advance L i op p).prog j = s.prog j := by
  show Function.update s.prog i p j = s.prog j
  rw [Function.update_of_ne hj]

/-- The other parties think what they thought. -/
theorem advance_selected_of_ne (hj : j ≠ i) :
    (s.advance L i op p).selected j = s.selected j :=
  Function.update_of_ne hj _ s.selected

end Advance

/-- The operation that a thread comes to next, answered with `a`. -/
theorem Step.next {i : ι} {op : Op} {k : Ans op → Program Op Ans (α i)}
    (hprog : s.prog i = .call op k) (a : Ans op) :
    Step L s (i, op) (s.advance L i op (k a)) := ⟨k, a, hprog, rfl⟩

/-- A respectful step leaves the latch as its party believes it to be. -/
theorem Agrees.step {l : ι × Op} (h : Agrees L s) (hstep : RespectfulStep L s l s') :
    Agrees L s' := by
  obtain ⟨⟨k, a, hprog, rfl⟩, hresp⟩ := hstep
  intro j hpend
  rw [advance_latch]
  by_cases hj : j = l.1
  · -- the thread itself: what it selects goes into the latch as well
    subst hj
    rw [advance_prog_self] at hpend
    rw [advance_selected_self]
    cases hsel : L.selects l.2 with
    | some r => rw [L.selectedAfter_some hsel, L.selectedAfter_some hsel]
    | none =>
        rw [L.selectedAfter_none hsel, L.selectedAfter_none hsel]
        have hbefore : L.Pending (s.prog l.1) := by
          rw [hprog]
          exact Or.inr ⟨hsel, a, hpend⟩
        exact h l.1 hbefore
  · -- another thread: the step leaves its program and its selection alone
    rw [advance_prog_of_ne hj] at hpend
    rw [advance_selected_of_ne hj]
    cases hsel : L.selects l.2 with
    | some r =>
        rw [L.selectedAfter_some hsel]
        exact (hresp r hsel j hj hpend).symm
    | none =>
        rw [L.selectedAfter_none hsel]
        exact h j hpend

/-- Each step takes a party on in its program. -/
theorem Disciplined.step {l : ι × Op} (h : Disciplined L allowed s) (hstep : Step L s l s') :
    Disciplined L allowed s' := by
  obtain ⟨k, a, hprog, rfl⟩ := hstep
  intro j
  by_cases hj : j = l.1
  · subst hj
    rw [advance_prog_self, advance_selected_self]
    have huses := h l.1
    rw [hprog] at huses
    exact huses.2 a
  · rw [advance_prog_of_ne hj, advance_selected_of_ne hj]
    exact h j

/-- **The run lemma.**  From a start where no thread has selected, respectful
steps keep the latch and the discipline. -/
theorem agrees_of_run {prog : ∀ i, Program Op Ans (α i)} {latch : Option Reg}
    {ls : List (ι × Op)} (hprog : ∀ i, L.Uses (allowed i) none (prog i))
    (hrun : Run (RespectfulStep L) (start prog latch) ls s) :
    Agrees L s ∧ Disciplined L allowed s := by
  apply hrun.invariant fun s => Agrees L s ∧ Disciplined L allowed s
  · refine ⟨?_, hprog⟩
    intro i hpend
    exact absurd hpend (hprog i).not_pending
  · rintro s l s' ⟨hagrees, hdisc⟩ hstep
    exact ⟨hagrees.step hstep, hdisc.step hstep.1⟩

/-- **An access reaches the register that its thread selected last.** -/
theorem access_sound {prog : ∀ i, Program Op Ans (α i)} {latch : Option Reg}
    {ls : List (ι × Op)} {l : ι × Op} (hprog : ∀ i, L.Uses (allowed i) none (prog i))
    (hrun : Run (RespectfulStep L) (start prog latch) ls s) (hstep : Step L s l s')
    (hacc : L.accesses l.2) :
    ∃ r, s.latch = some r ∧ s.selected l.1 = some r ∧ allowed l.1 r l.2 := by
  obtain ⟨hagrees, hdisc⟩ := agrees_of_run hprog hrun
  obtain ⟨k, a, hnext, -⟩ := hstep
  have hpend : L.Pending (s.prog l.1) := by
    rw [hnext]
    exact Or.inl hacc
  have huses := hdisc l.1
  rw [hnext] at huses
  obtain ⟨r, hsel, hallowed⟩ := huses.1 hacc
  exact ⟨r, (hagrees l.1 hpend).trans hsel, hsel, hallowed⟩

/-- A thread whose pending access would reach another register gets there on
its own. -/
theorem disturbed_of_pending {j : ι} {p : Program Op Ans (α j)} (hprog : s.prog j = p)
    (hpend : L.Pending p) (hne : s.latch ≠ s.selected j) :
    ∃ ls s' op k, Run (Step L) s ls s' ∧ s'.prog j = .call op k ∧ L.accesses op
      ∧ s'.latch ≠ s'.selected j := by
  induction p generalizing s with
  | ret a => exact absurd hpend id
  | call op k ih =>
      rcases hpend with hacc | ⟨hnone, a, hpend⟩
      · exact ⟨[], s, op, k, .nil, hprog, hacc, hne⟩
      · -- `op` leaves the latch and the selection alone
        have hne' : (s.advance L j op (k a)).latch ≠ (s.advance L j op (k a)).selected j := by
          rw [advance_latch, advance_selected_self, L.selectedAfter_none hnone,
              L.selectedAfter_none hnone]
          exact hne
        obtain ⟨ls, s', op', k', hrun, hrest⟩ := ih a advance_prog_self hpend hne'
        exact ⟨_, s', op', k', Run.cons (.next hprog a) hrun, hrest⟩

/-- **Respect is needed.**  After a step that takes the latch from a pending
thread, that thread can go on to an access of another register than its own. -/
theorem disturbed_of_not_respects {l : ι × Op} (hstep : Step L s l s')
    (hnot : ¬ Respects L s l) :
    ∃ j ls s'' op k, Run (Step L) s' ls s'' ∧ s''.prog j = .call op k ∧ L.accesses op
      ∧ s''.latch ≠ s''.selected j := by
  unfold Respects at hnot
  push Not at hnot
  obtain ⟨r, hsel, j, hj, hpend, hne⟩ := hnot
  obtain ⟨k, a, -, rfl⟩ := hstep
  have hne' : (s.advance L l.1 l.2 (k a)).latch ≠ (s.advance L l.1 l.2 (k a)).selected j := by
    rw [advance_latch, advance_selected_of_ne hj, L.selectedAfter_some hsel]
    exact hne.symm
  exact ⟨j, disturbed_of_pending (advance_prog_of_ne hj) hpend hne'⟩

end Threads

end PicoosLwip.Framework
