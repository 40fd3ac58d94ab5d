/-
  PicoosLwip.Netif.AddressLatch — the CS8900A's address latch, and the two
  threads that share it.

  A word written to `ADD_PORT` selects the register that `DATA_PORT` reaches.
  The polling thread runs `lowLevelInput`; `netif->linkoutput` runs
  `lowLevelOutput` in another thread; nothing in the driver keeps them apart.
  Here each bus routine is one step and the steps interleave freely.

  Main results:
    * `register_race`        — the polling thread's check of `PP_RxEvent` reads
                               `PP_BusST`;
    * `data_port_undisturbed` — as long as no thread moves the latch while the
                               other has a `DATA_PORT` access to come, every
                               access reaches the register selected for it.
-/
import PicoosLwip.Framework.SharedLatch
import PicoosLwip.Netif.Cs8900a

namespace PicoosLwip.Netif.Cs8900a

open PicoosLwip.Framework

/-! ## §1. What the operations do to the latch. -/

/-- What selects a register, what accesses the selected one, and what does neither. -/
def registerUse : LatchUse Op UInt16 where
  selects
    | .cs8900aWrite addr data => if addr = ADD_PORT then some data else none
    | _ => none
  accesses
    | .cs8900aWrite addr _ => addr = DATA_PORT
    | .cs8900aRead addr => addr = DATA_PORT
    | .cs8900aReadAddrHighFirst addr => addr = DATA_PORT
    | _ => False

/-- A function that checks the register `check` reads that one and, to skip a
frame, `PP_RxCFG`, which is the only one it writes. -/
def Intends (check r : UInt16) : Op → Prop
  | .cs8900aRead _ => r = check ∨ r = PP_RxCFG
  | .cs8900aWrite _ _ => r = PP_RxCFG
  | _ => False

/-! ## §2. Each function selects what it accesses. -/

section Functions

/-- The function keeps to `check` and `PP_RxCFG`, whatever was selected before. -/
def Selects (check : UInt16) {α : Type} (p : Driver α) : Prop :=
  ∀ sel, registerUse.Uses (Intends check) sel p

variable {check : UInt16}

/-- No access. -/
theorem Selects.ret {α : Type} (a : α) : Selects check (.ret a : Driver α) :=
  fun sel => LatchUse.Uses.ret sel a

/-- The second part selects for itself. -/
theorem Selects.bind {α β : Type} {p : Driver α} {f : α → Driver β} (hp : Selects check p)
    (hf : ∀ a, Selects check (f a)) : Selects check (p >>= f) :=
  fun sel => (hp sel).bind fun a sel' => hf a sel'

/-- An operation on another port than `DATA_PORT`, or on none. -/
theorem Selects.perform {op : Op} (hop : ¬ registerUse.accesses op) :
    Selects check (Program.perform op) :=
  fun _ => LatchUse.Uses.perform hop

/-- A write to another port is no access. -/
theorem Selects.write {addr : Nat} (haddr : addr ≠ DATA_PORT) (data : UInt16) :
    Selects check (cs8900aWrite addr data) := Selects.perform haddr

/-- Nor is a read of one. -/
theorem Selects.readAddrHighFirst {addr : Nat} (haddr : addr ≠ DATA_PORT) :
    Selects check (cs8900aReadAddrHighFirst addr) := Selects.perform haddr

/-- A select, the read that it is made for, and what relies on the selection. -/
theorem Selects.read_register {α : Type} {f : UInt16 → Driver α} {r : UInt16}
    (hr : r = check ∨ r = PP_RxCFG)
    (hf : ∀ v, registerUse.Uses (Intends check) (some r) (f v)) :
    Selects check (do cs8900aWrite ADD_PORT r; let v ← cs8900aRead DATA_PORT; f v) := by
  intro sel
  refine LatchUse.Uses.call ?_ fun _ => ?_
  · intro h
    have hports : ADD_PORT = DATA_PORT := h
    exact absurd hports (by decide)
  · show registerUse.Uses (Intends check) (some r) _
    exact LatchUse.Uses.call (fun _ => ⟨r, rfl, hr⟩) hf

/-- A select and the read of the checked register; what follows selects anew. -/
theorem Selects.check_register {α : Type} {f : UInt16 → Driver α}
    (hf : ∀ v, Selects check (f v)) :
    Selects check (do cs8900aWrite ADD_PORT check; let v ← cs8900aRead DATA_PORT; f v) :=
  Selects.read_register (Or.inl rfl) fun v => hf v (some check)

/-- It accesses `PP_RxCFG`. -/
theorem cs8900aSkipFrame_selects : Selects check cs8900aSkipFrame := by
  apply Selects.read_register (Or.inr rfl)
  intro cfg
  -- the write goes to the register just read
  exact LatchUse.Uses.call (fun _ => ⟨PP_RxCFG, rfl, rfl⟩) fun a => LatchUse.Uses.ret _ a

/-- The padding is none of the chip's business. -/
theorem dropPadding_selects (pad : Nat) (p : PbufChain) : Selects check (dropPadding pad p) := by
  unfold dropPadding
  split
  · exact Selects.ret p
  · exact Selects.perform id

theorem reclaimPadding_selects (pad : Nat) (p : PbufChain) :
    Selects check (reclaimPadding pad p) := by
  unfold reclaimPadding
  split
  · exact Selects.ret p
  · exact Selects.perform id

/-- It accesses `PP_BusST`. -/
theorem readyForTx_selects : Selects PP_BusST readyForTx := by
  apply Selects.check_register
  intro status
  exact Selects.ret _

/-- So does every retry. -/
theorem waitForTx_selects (u : Nat) : Selects PP_BusST (waitForTx u) := by
  induction u with
  | zero => exact readyForTx_selects
  | succ u ih =>
      -- a check, and if the chip is not ready a skip before the next one
      apply Selects.bind readyForTx_selects
      intro ready
      cases ready with
      | true => exact Selects.ret true
      | false => exact Selects.bind cs8900aSkipFrame_selects fun _ => ih

theorem sendPayload_selects (q : Pbuf) (u : Nat) : Selects check (sendPayload q u) := by
  fun_induction sendPayload q u with
  | case1 u hu ih => exact Selects.bind (Selects.perform id) fun _ => ih
  | case2 u hu => exact Selects.ret ()

/-- The frame goes through the frame port. -/
theorem sendSegments_selects (qs : List Pbuf) : Selects check (sendSegments qs) := by
  induction qs with
  | nil => exact Selects.ret ()
  | cons q qs ih =>
      apply Selects.bind (Selects.perform id)
      intro _
      exact Selects.bind (sendPayload_selects q 0) fun _ => ih

/-- **Sending** accesses `PP_BusST` only, and selects it first. -/
theorem lowLevelOutput_selects (pad : Nat) (p : PbufChain) :
    Selects PP_BusST (lowLevelOutput pad p) := by
  apply Selects.bind (dropPadding_selects pad p)
  intro p
  apply Selects.bind (Selects.write (by decide) _)
  intro _
  apply Selects.bind (Selects.write (by decide) _)
  intro _
  apply Selects.bind (waitForTx_selects 8)
  intro ready
  cases ready with
  | true =>
      -- from here on the thread touches the frame port only
      apply Selects.bind (sendSegments_selects p.segments)
      intro _
      apply Selects.bind (reclaimPadding_selects pad p)
      intro p
      exact Selects.bind (Selects.perform id) fun _ => Selects.ret _
  | false => exact Selects.ret _

theorem readPayload_selects (fuel k : Nat) (q : Pbuf) (u : UInt16) :
    Selects check (readPayload fuel k q u) := by
  induction fuel generalizing q u with
  | zero => exact Selects.ret none
  | succ fuel ih =>
      unfold readPayload
      split
      · exact Selects.bind (Selects.perform id) fun b => ih _ _
      · exact Selects.ret (some q)

/-- The frame comes through the frame port. -/
theorem readSegments_selects (fuel k : Nat) (qs : List Pbuf) :
    Selects check (readSegments fuel k qs) := by
  induction qs generalizing k with
  | nil => exact Selects.ret _
  | cons q qs ih =>
      apply Selects.bind (readPayload_selects fuel k q 0)
      intro q
      cases q with
      | none => exact Selects.ret _
      | some q =>
          apply Selects.bind (ih (k + 1))
          intro qs
          cases qs with
          | none => exact Selects.ret _
          | some qs => exact Selects.ret _

/-- So copying accesses no register. -/
theorem receiveInto_selects (pad fuel : Nat) (p : PbufChain) :
    Selects check (receiveInto pad fuel p) := by
  apply Selects.bind (dropPadding_selects pad p)
  intro p
  apply Selects.bind (Selects.perform id)
  intro _
  apply Selects.bind (readPayload_selects fuel 0 p.first 0)
  intro first
  cases first with
  | none => exact Selects.ret _
  | some first =>
      apply Selects.bind (readSegments_selects fuel 1 p.next)
      intro next
      cases next with
      | none => exact Selects.ret _
      | some next =>
          apply Selects.bind (reclaimPadding_selects pad _)
          intro p
          exact Selects.bind (Selects.perform id) fun _ => Selects.ret _

/-- **Receiving** accesses `PP_RxEvent` and `PP_RxCFG`, and selects them first. -/
theorem lowLevelInput_selects (pad fuel : Nat) :
    Selects PP_RxEvent (lowLevelInput pad fuel) := by
  apply Selects.check_register
  intro event
  split
  · exact Selects.ret _
  · apply Selects.bind (Selects.readAddrHighFirst (by decide))
    intro _
    apply Selects.bind (Selects.readAddrHighFirst (by decide))
    intro len
    apply Selects.bind (Selects.perform id)
    intro p
    cases p with
    | none =>
        -- no pbuf: the frame is skipped and counted
        apply Selects.bind cs8900aSkipFrame_selects
        intro _
        apply Selects.bind (Selects.perform id)
        intro _
        exact Selects.bind (Selects.perform id) fun _ => Selects.ret _
    | some p =>
        apply Selects.bind (receiveInto_selects pad fuel p)
        intro r
        cases r with
        | none => exact Selects.ret _
        | some p => exact Selects.ret _

end Functions

/-! ## §3. The two threads. -/

/-- What a thread does in the driver. -/
inductive Task where
  | polling
  | transmitting
  deriving DecidableEq

/-- What the thread's function returns. -/
def Task.Result : Task → Type
  | .polling => Option (Option PbufChain)
  | .transmitting => Err × PbufChain

/-- The register that the thread's function checks. -/
def Task.check : Task → UInt16
  | .polling => PP_RxEvent
  | .transmitting => PP_BusST

/-- One `lowLevelInput` beside one `lowLevelOutput`. -/
def Task.run (pad fuel : Nat) (p : PbufChain) : (t : Task) → Driver t.Result
  | .polling => lowLevelInput pad fuel
  | .transmitting => lowLevelOutput pad p

/-- The threads that are in it. -/
abbrev Driving : Type := Threads Op Op.Ans UInt16 Task Task.Result

/-- Both threads are at the start; the latch holds what it held before. -/
def entered (pad fuel : Nat) (p : PbufChain) (latch : Option UInt16) : Driving :=
  Threads.start (Task.run pad fuel p) latch

/-- Each task selects what it accesses. -/
theorem Task.run_selects (pad fuel : Nat) (p : PbufChain) (t : Task) :
    Selects t.check (t.run pad fuel p) := by
  cases t with
  | polling => exact lowLevelInput_selects pad fuel
  | transmitting => exact lowLevelOutput_selects pad p

/-- **`DATA_PORT` accesses do not disturb each other** as long as no thread
selects a register while the other, which selected another one, has its access
still to come. -/
theorem data_port_undisturbed {pad fuel : Nat} {p : PbufChain} {latch : Option UInt16}
    {s s' : Driving} {ls : List (Task × Op)} {t : Task} {op : Op}
    (hrun : Run (Threads.RespectfulStep registerUse) (entered pad fuel p latch) ls s)
    (hstep : Threads.Step registerUse s (t, op) s') (hacc : registerUse.accesses op) :
    ∃ r, s.latch = some r ∧ s.selected t = some r ∧ Intends t.check r op :=
  Threads.access_sound (fun t => Task.run_selects pad fuel p t none) hrun hstep hacc

/-- The condition is needed: after a step that breaks it, a thread can go on to
an access of another register than the one it selected. -/
theorem data_port_disturbed {s s' : Driving} {l : Task × Op}
    (hstep : Threads.Step registerUse s l s') (hnot : ¬ Threads.Respects registerUse s l) :
    ∃ t ls s'' op k, Run (Threads.Step registerUse) s' ls s'' ∧ s''.prog t = .call op k
      ∧ registerUse.accesses op ∧ s''.latch ≠ s''.selected t :=
  Threads.disturbed_of_not_respects hstep hnot

/-! ## §4. Two interleavings. -/

/-- A frame of two bytes in one pbuf. -/
def sampleChain : PbufChain := ⟨⟨fun _ => 0, 0, 2⟩, [], 2⟩

/-- The polling thread selects, and the transmitting thread begins its frame. -/
def announcing : List (Task × Op) :=
  [(.polling, .cs8900aWrite ADD_PORT PP_RxEvent),
   (.transmitting, .cs8900aWrite TX_CMD_PORT TX_START_ALL_BYTES)]

/-- As `announcing`, up to the transmitting thread's own select. -/
def overtaking : List (Task × Op) :=
  announcing ++ [(.transmitting, .cs8900aWrite TX_LEN_PORT 2),
    (.transmitting, .cs8900aWrite ADD_PORT PP_BusST)]

/-- The transmitting thread announces its frame while the polling thread is
between its select and its read. -/
theorem data_port_undisturbed_announcing :
    ∃ s s', Run (Threads.RespectfulStep registerUse) (entered 0 1 sampleChain none) announcing s
      ∧ Threads.Step registerUse s (.polling, .cs8900aRead DATA_PORT) s'
      ∧ ∃ r, s.latch = some r ∧ s.selected .polling = some r
        ∧ Intends Task.polling.check r (.cs8900aRead DATA_PORT) := by
  have hselect : Threads.Respects registerUse (entered 0 1 sampleChain none)
      (.polling, .cs8900aWrite ADD_PORT PP_RxEvent) := by
    intro r _ j _ hpend
    exact absurd hpend (Task.run_selects 0 1 sampleChain j none).not_pending
  have hannounce : ∀ s : Driving, Threads.Respects registerUse s
      (.transmitting, .cs8900aWrite TX_CMD_PORT TX_START_ALL_BYTES) := by
    intro s r hr
    exact absurd hr (by simp [registerUse, TX_CMD_PORT, ADD_PORT])
  have hrun : Run (Threads.RespectfulStep registerUse) (entered 0 1 sampleChain none)
      announcing _ :=
    Run.cons ⟨.next rfl (), hselect⟩ (Run.single ⟨.next rfl (), hannounce _⟩)
  exact ⟨_, _, hrun, .next rfl (0x100 : UInt16),
    data_port_undisturbed hrun (.next rfl (0x100 : UInt16)) rfl⟩

/-- **The race.**  Between the polling thread's select and its read, the
transmitting thread selects `PP_BusST`: the check of `PP_RxEvent` reads that. -/
theorem register_race :
    ∃ s s', Run (Threads.Step registerUse) (entered 0 1 sampleChain none) overtaking s
      ∧ Threads.Step registerUse s (.polling, .cs8900aRead DATA_PORT) s'
      ∧ s.latch = some PP_BusST ∧ s.selected .polling = some PP_RxEvent
      ∧ PP_BusST ≠ PP_RxEvent := by
  have hrun : Run (Threads.Step registerUse) (entered 0 1 sampleChain none) overtaking _ :=
    Run.cons (.next rfl ()) (Run.cons (.next rfl ())
      (Run.cons (.next rfl ()) (Run.single (.next rfl ()))))
  exact ⟨_, _, hrun, .next rfl (0x100 : UInt16), rfl, rfl, by decide⟩

end PicoosLwip.Netif.Cs8900a
