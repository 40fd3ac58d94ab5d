/-
  PicoosLwip.Netif.ChipInit — how the CS8900A driver sets its chip up.

  `cs8900aIfInit` resets the chip, waits until it is up again, and then writes the
  station address and a table of settings to its registers.  Only then does it create
  the thread that polls the chip.  What is proved here is about the chip's ports, so
  about the bytes on the bus.

  Main results:
    * `initChip_registers`  — the registers are written in order, and the first setting
                              only after the chip has said that it is up;
    * `calls_registers`     — whatever is sent and received later, `PP_RxCFG` is the only
                              register that is written;
    * `configured`          — so the chip keeps its settings.
-/
import PicoosLwip.Netif.AddressLatch
import PicoosLwip.Netif.ChipPorts
import PicoosLwip.Netif.TapSetup

namespace PicoosLwip.Netif.Cs8900a

open PicoosLwip.Framework

/-! ## §1. The settings. -/

/-- Which frames are received. -/
def PP_RxCTL : UInt16 := 0x0104
/-- Transmitter and receiver. -/
def PP_LineCTL : UInt16 := 0x0112
/-- Control of the chip itself. -/
def PP_SelfCTL : UInt16 := 0x0114
/-- Its status. -/
def PP_SelfST : UInt16 := 0x0136
/-- The filter for logical addresses. -/
def PP_LAF : UInt16 := 0x0150
/-- The hardware address. -/
def PP_IA : UInt16 := 0x0158

/-- Frames without errors. -/
def RX_OK_ACCEPT : UInt16 := 0x0100
/-- Frames to many. -/
def RX_MULTCAST_ACCEPT : UInt16 := 0x0200
/-- Frames to the hardware address. -/
def RX_IA_ACCEPT : UInt16 := 0x0400
/-- Frames to all. -/
def RX_BROADCAST_ACCEPT : UInt16 := 0x0800
/-- The receiver is on. -/
def SERIAL_RX_ON : UInt16 := 0x0040
/-- The transmitter is on. -/
def SERIAL_TX_ON : UInt16 := 0x0080
/-- A reset as after power-on. -/
def POWER_ON_RESET : UInt16 := 0x0040
/-- The reset is over. -/
def INIT_DONE : UInt16 := 0x0080

/-- A register, and a word for it. -/
abbrev Setting : Type := UInt16 × UInt16

/-- What the driver sets, register by register. -/
def InitSeq : List Setting :=
  [(PP_LineCTL, SERIAL_RX_ON ||| SERIAL_TX_ON),
   (PP_LAF + 0, 0xffff),
   (PP_LAF + 2, 0xffff),
   (PP_LAF + 4, 0xffff),
   (PP_LAF + 6, 0xffff),
   (PP_RxCTL, RX_OK_ACCEPT ||| RX_IA_ACCEPT ||| RX_BROADCAST_ACCEPT ||| RX_MULTCAST_ACCEPT)]

/-- `hwaddr[i] + (hwaddr[i + 1] << 8)` -/
def addressWord (hwaddr : List UInt8) (i : Nat) : UInt16 :=
  (hwaddr.getD i 0).toUInt16 + (hwaddr.getD (i + 1) 0).toUInt16 <<< 8

/-- `for (i = 0; i < 6; i += 2)` -/
def addressWords (hwaddr : List UInt8) : List Setting :=
  [0, 2, 4].map fun i => (PP_IA + UInt16.ofNat i, addressWord hwaddr i)

/-- All that the chip is set to. -/
def configuration (hwaddr : List UInt8) : List Setting := addressWords hwaddr ++ InitSeq

/-! ## §2. The functions. -/

/-- Select a register, and write to it. -/
def setRegister (setting : Setting) : Driver Unit := do
  cs8900aWrite ADD_PORT setting.1
  cs8900aWrite DATA_PORT setting.2

/-- One register after the other. -/
def setRegisters : List Setting → Driver Unit
  | [] => pure ()
  | setting :: settings => do
      setRegister setting
      setRegisters settings

/-- `while ((cs8900aRead(DATA_PORT) & INIT_DONE) == 0) ;`, for at most `fuel` rounds. -/
def waitInitDone : (fuel : Nat) → Driver (Option Unit)
  | 0 => pure none
  | fuel + 1 => do
      let status ← cs8900aRead DATA_PORT
      if status &&& INIT_DONE = 0 then waitInitDone fuel else pure (some ())

/-- What `lowLevelInit` does to the chip. -/
def initChip (fuel : Nat) (hwaddr : List UInt8) : Driver (Option Unit) := do
  setRegister (PP_SelfCTL, POWER_ON_RESET)
  -- the register stays selected while it is polled
  cs8900aWrite ADD_PORT PP_SelfST
  match ← waitInitDone fuel with
  | none => pure none
  | some () => do
      setRegisters (addressWords hwaddr)
      setRegisters InitSeq
      pure (some ())

/-- No result while the chip is not up. -/
def lowLevelInit (fuel : Nat) (netif : Interface) : PinLevel (Option Interface) := do
  let netif := { netif with
    hwaddr := [0x0, 0xbd, 0x3, 0x4, 0x5, 0x7]
    mtu := 1500
    flags := [.NETIF_FLAG_BROADCAST, .NETIF_FLAG_ETHARP, .NETIF_FLAG_LINK_UP] }
  -- the pins, before anything on the bus
  Gpio.initPins.inl
  match ← (initChip fuel netif.hwaddr).realize pinLevel with
  | none => pure none
  | some () => pure (some netif)

/-- What `cs8900aIfInit` asks of the kernel. -/
inductive SetupOp where
  | mem_malloc
  /-- `cs8900aIf->poll = nosTaskCreate(cs8900aThread, netif, 1, 300, "cs")` -/
  | nosTaskCreate

/-- `mem_malloc` may return `NULL`. -/
def SetupOp.Ans : SetupOp → Type
  | .mem_malloc => Bool
  | .nosTaskCreate => Unit

/-- A program on the board with these calls. -/
abbrev Setup (α : Type) : Type :=
  Program ((Gpio.Op ⊕ LwipOp) ⊕ SetupOp) (Sum.elim (Sum.elim Gpio.Op.Ans LwipOp.Ans) SetupOp.Ans) α

/-- Memory for the interface's state, if there is any. -/
def mem_malloc : Setup Bool := Program.performInr SetupOp.mem_malloc

/-- The receiving thread is started. -/
def nosTaskCreate : Setup Unit := Program.performInr SetupOp.nosTaskCreate

/-- Memory, the name of the interface, the chip, and last the thread. -/
def cs8900aIfInit (fuel : Nat) (netif : Interface) : Setup (Option (InitErr × Interface)) := do
  if ← mem_malloc then
    let netif := { netif with name := ['c', 's'] }
    match ← (lowLevelInit fuel netif).inl with
    | none => pure none
    | some netif => do
        nosTaskCreate
        pure (some (.ERR_OK, netif))
  else
    pure (some (.ERR_MEM, netif))

/-! ## §3. They keep to the bus protocol. -/

section Modes

variable {m : BusMode}

/-- A setting is allowed in any mode of the bus. -/
theorem keeps_setRegister (setting : Setting) : KeepsModes m (setRegister setting) AnyMode := by
  refine Program.Keeps.bind (keeps_cs8900aWrite (by decide) _) ?_
  intro _ m₁ _
  exact keeps_cs8900aWrite (by decide) _

theorem keeps_setRegisters (settings : List Setting) :
    KeepsModes m (setRegisters settings) AnyMode := by
  induction settings generalizing m with
  | nil => exact Program.Keeps.ret trivial
  | cons setting settings ih => exact Program.Keeps.bind (keeps_setRegister setting) fun _ _ _ => ih

/-- So is the wait. -/
theorem keeps_waitInitDone (fuel : Nat) : KeepsModes m (waitInitDone fuel) AnyMode := by
  induction fuel generalizing m with
  | zero => exact Program.Keeps.ret trivial
  | succ fuel ih =>
      refine Program.Keeps.bind (keeps_cs8900aRead (by decide)) ?_
      intro status m₁ _
      split
      · exact ih
      · exact Program.Keeps.ret trivial

/-- So is all that is done to the chip. -/
theorem keeps_initChip (fuel : Nat) (hwaddr : List UInt8) :
    KeepsModes m (initChip fuel hwaddr) AnyMode := by
  refine Program.Keeps.bind (keeps_setRegister _) ?_
  intro _ m₁ _
  refine Program.Keeps.bind (keeps_cs8900aWrite (by decide) _) ?_
  intro _ m₂ _
  refine Program.Keeps.bind (keeps_waitInitDone fuel) ?_
  intro up m₃ _
  cases up with
  | none => exact Program.Keeps.ret trivial
  | some _ =>
      refine Program.Keeps.bind (keeps_setRegisters _) ?_
      intro _ m₄ _
      exact Program.Keeps.bind (keeps_setRegisters _) fun _ _ _ => Program.Keeps.ret trivial

end Modes

/-! ## §4. What the chip's registers get. -/

/-- The chip is asked for its state until it says that it is up. -/
inductive Polled : List RegisterAccess → Prop
  | up (status : UInt16) (h : status &&& INIT_DONE ≠ 0) : Polled [.read PP_SelfST status]
  | again (status : UInt16) (h : status &&& INIT_DONE = 0) {accs : List RegisterAccess}
      (hrest : Polled accs) : Polled (.read PP_SelfST status :: accs)

/-- As writes. -/
def written (settings : List Setting) : List RegisterAccess :=
  settings.map fun setting => .wrote setting.1 setting.2

section Registers

variable {ok : BusStep → Prop}

/-- A setting is one write to its register. -/
theorem setRegister_registers (setting : Setting) :
    Program.Ensures ok (setRegister setting) fun tr _ => ∀ c : ChipPorts,
      (c.steps tr).registers = c.registers ++ [.wrote setting.1 setting.2] :=
  Program.Ensures.call fun _ _ => Program.Ensures.perform fun _ _ _ => rfl

/-- All of them are made, in their order. -/
theorem setRegisters_registers (settings : List Setting) :
    Program.Ensures ok (setRegisters settings) fun tr _ => ∀ c : ChipPorts,
      (c.steps tr).registers = c.registers ++ written settings := by
  induction settings with
  | nil => exact Program.Ensures.ret fun c => (List.append_nil _).symm
  | cons setting settings ih =>
      refine Program.Ensures.bind (setRegister_registers setting) ?_
      intro tr _ hone
      refine ih.mono ?_
      intro tr' _ hall c
      rw [ChipPorts.steps_append, hall, hone, List.append_assoc]
      rfl

/-- The loop ends when the chip is up. -/
theorem waitInitDone_registers (fuel : Nat) :
    Program.Ensures ok (waitInitDone fuel) fun tr up => up = some () → ∃ polls, Polled polls
      ∧ ∀ c : ChipPorts, c.pointer = PP_SelfST → (c.steps tr).registers = c.registers ++ polls := by
  induction fuel with
  | zero => exact Program.Ensures.ret nofun
  | succ fuel ih =>
      refine Program.Ensures.call fun (status : UInt16) _ => ?_
      show Program.Ensures ok (if status &&& INIT_DONE = 0 then _ else _) _
      have hread : ∀ c : ChipPorts, c.pointer = PP_SelfST →
          (c.step ⟨.cs8900aRead DATA_PORT, status⟩).registers
            = c.registers ++ [.read PP_SelfST status] := by
        intro c hc
        rw [← hc]
        rfl
      split
      next hdown =>
        -- one more round
        refine ih.mono ?_
        intro tr up hlater hup
        obtain ⟨polls, hpolls, hregs⟩ := hlater hup
        refine ⟨_, .again status hdown hpolls, fun c hc => ?_⟩
        have hrest := hregs (c.step ⟨.cs8900aRead DATA_PORT, status⟩) hc
        rw [hread c hc, List.append_assoc] at hrest
        exact hrest
      next hup => exact Program.Ensures.ret fun _ => ⟨_, .up status hup, hread⟩

/-- **The registers, in order**: the reset, the chip's answer, and then the settings. -/
theorem initChip_registers (fuel : Nat) (hwaddr : List UInt8) :
    Program.Ensures ok (initChip fuel hwaddr) fun tr up => up = some () → ∃ polls, Polled polls
      ∧ ∀ c : ChipPorts, (c.steps tr).registers = c.registers
        ++ .wrote PP_SelfCTL POWER_ON_RESET :: (polls ++ written (configuration hwaddr)) := by
  refine Program.Ensures.bind (setRegister_registers _) ?_
  intro tr₁ _ hreset
  refine Program.Ensures.call fun (selected : Unit) _ => ?_
  show Program.Ensures ok (waitInitDone fuel >>= _) _
  refine Program.Ensures.bind (waitInitDone_registers fuel) ?_
  intro tr₂ up hwait
  cases up with
  | none => exact Program.Ensures.ret nofun
  | some _ =>
      obtain ⟨polls, hpolls, hregs⟩ := hwait rfl
      refine Program.Ensures.bind (setRegisters_registers _) ?_
      intro tr₃ _ haddress
      refine Program.Ensures.bind (setRegisters_registers _) ?_
      intro tr₄ _ hseq
      refine Program.Ensures.ret fun _ => ⟨polls, hpolls, fun c => ?_⟩
      -- PP_SelfST is selected when the polling begins
      have hselect := hregs ((c.steps tr₁).step ⟨.cs8900aWrite ADD_PORT PP_SelfST, selected⟩) rfl
      rw [List.append_nil, ChipPorts.steps_append, ChipPorts.steps_cons, ChipPorts.steps_append,
        ChipPorts.steps_append, hseq, haddress, hselect]
      show (c.steps tr₁).registers ++ _ ++ _ ++ _ = _
      rw [hreset]
      unfold configuration written
      simp only [List.map_append, List.append_assoc, List.cons_append, List.nil_append]

/-! ## §5. What they get later. -/

/-- `PP_RxCFG` may be written, and every register read. -/
def Skipping (r : UInt16) : Op → Prop
  | .cs8900aWrite _ _ => r = PP_RxCFG
  | _ => True

/-- An access that configures nothing. -/
def RegisterAccess.Skips : RegisterAccess → Prop
  | .wrote r _ => r = PP_RxCFG
  | .read _ _ => True

/-- What a thread may do once the chip is set up. -/
def Access.IsCall : Access → Prop
  | .cs8900aSkipFrame | .lowLevelOutput _ | .lowLevelInput _ => True
  | _ => False

/-- What a call intends configures nothing. -/
theorem skipping_of_intends {check r : UInt16} (op : Op) (h : Intends check r op) :
    Skipping r op := by
  cases op with
  | cs8900aWrite addr data => exact h
  | _ => trivial

/-- One call configures nothing. -/
theorem call_skips (pad : Nat) {acc : Access} (h : acc.IsCall) (sel : Option UInt16) :
    registerUse.Uses Skipping sel (acc.perform pad) := by
  cases acc with
  | cs8900aWrite addr data | cs8900aRead addr | cs8900aReadAddrHighFirst addr => exact h.elim
  | cs8900aSkipFrame =>
      have hselects : Selects PP_RxCFG cs8900aSkipFrame := cs8900aSkipFrame_selects
      exact (hselects sel).mono fun _ => skipping_of_intends
  | lowLevelOutput p =>
      have hselects : Selects PP_BusST ((Access.lowLevelOutput p).perform pad) :=
        (lowLevelOutput_selects pad p).bind fun _ => Selects.ret _
      exact (hselects sel).mono fun _ => skipping_of_intends
  | lowLevelInput fuel =>
      have hselects : Selects PP_RxEvent ((Access.lowLevelInput fuel).perform pad) :=
        (lowLevelInput_selects pad fuel).bind fun _ => Selects.ret _
      exact (hselects sel).mono fun _ => skipping_of_intends

/-- Nor do several. -/
theorem calls_skip (pad : Nat) {accs : List Access} (h : ∀ acc ∈ accs, acc.IsCall)
    (sel : Option UInt16) : registerUse.Uses Skipping sel (performAll pad accs) := by
  induction accs generalizing sel with
  | nil => exact LatchUse.Uses.ret sel ()
  | cons acc accs ih =>
      obtain ⟨hacc, haccs⟩ := List.forall_mem_cons.mp h
      exact (call_skips pad hacc sel).bind fun _ sel' => ih haccs sel'

/-- The chip's pointer is the latch. -/
theorem step_pointer (c : ChipPorts) (e : BusStep) :
    (c.step e).pointer = (registerUse.selects e.1).getD c.pointer := by
  obtain ⟨op, ans⟩ := e
  cases op with
  | cs8900aWrite addr data =>
      show (c.word addr data).pointer = (if addr = ADD_PORT then some data else none).getD c.pointer
      unfold ChipPorts.word
      split
      next => rfl
      next => split_ifs <;> rfl
  | cs8900aRead addr =>
      show (c.wordRead addr ans).pointer = c.pointer
      unfold ChipPorts.wordRead
      split <;> rfl
  | cs8900aReadAddrHighFirst addr =>
      by_cases haddr : addr = DATA_PORT <;> simp [ChipPorts.step, haddr, registerUse]
  | _ => rfl

/-- An operation that accesses a register adds to what the registers got, no other does. -/
theorem step_registers {c : ChipPorts} {e : BusStep}
    (h : registerUse.accesses e.1 → Skipping c.pointer e.1) :
    ∃ later, (c.step e).registers = c.registers ++ later ∧ ∀ acc ∈ later, acc.Skips := by
  have hnone : ∃ later, c.registers = c.registers ++ later
      ∧ ∀ acc : RegisterAccess, acc ∈ later → acc.Skips := ⟨[], by simp, by simp⟩
  obtain ⟨op, ans⟩ := e
  cases op with
  | cs8900aWrite addr data =>
      by_cases hdata : addr = DATA_PORT
      · subst hdata
        -- the only register that a call may write to
        have hskip : c.pointer = PP_RxCFG := h rfl
        exact ⟨[.wrote c.pointer data], rfl, by simpa [RegisterAccess.Skips] using hskip⟩
      · have hsame : (c.word addr data).registers = c.registers := by
          unfold ChipPorts.word
          rw [if_neg hdata]
          split_ifs <;> rfl
        show ∃ later, (c.word addr data).registers = _ ∧ _
        rw [hsame]
        exact hnone
  | cs8900aRead addr =>
      show ∃ later, (c.wordRead addr ans).registers = _ ∧ _
      unfold ChipPorts.wordRead
      split
      · exact ⟨_, rfl, by simp [RegisterAccess.Skips]⟩
      · exact hnone
  | cs8900aReadAddrHighFirst addr =>
      unfold ChipPorts.step
      dsimp only
      split
      · exact ⟨_, rfl, by simp [RegisterAccess.Skips]⟩
      · exact hnone
  | _ => exact hnone

/-- **A program that selects what it accesses** writes only to registers that it may. -/
theorem registers_of_uses {α : Type} {p : Driver α} {tr : List BusStep} {a : α}
    {sel : Option UInt16} (huses : registerUse.Uses Skipping sel p) (hrun : Program.Trace p tr a)
    (c : ChipPorts) (hsel : ∀ r, sel = some r → c.pointer = r) :
    ∃ later, (c.steps tr).registers = c.registers ++ later ∧ ∀ acc ∈ later, acc.Skips := by
  induction hrun generalizing sel c with
  | ret a => exact ⟨[], by simp [ChipPorts.steps], by simp⟩
  | call op k ans hrest ih =>
      have hone := step_registers (c := c) (e := ⟨op, ans⟩) fun hacc => by
        obtain ⟨r, hr, hskip⟩ := huses.1 hacc
        rw [hsel r hr]
        exact hskip
      -- the chip's pointer is what the program believes it to be
      have hpointer : ∀ r, registerUse.selectedAfter op sel = some r →
          (c.step ⟨op, ans⟩).pointer = r := by
        intro r hr
        rw [step_pointer]
        unfold LatchUse.selectedAfter at hr
        cases hsels : registerUse.selects op with
        | none =>
            rw [hsels] at hr
            exact hsel r hr
        | some r' =>
            rw [hsels] at hr
            exact Option.some.inj hr
      obtain ⟨first, hfirst, hskips⟩ := hone
      obtain ⟨later, hlater, hskips'⟩ := ih (huses.2 ans) (c.step ⟨op, ans⟩) hpointer
      refine ⟨first ++ later, ?_, List.forall_mem_append.mpr ⟨hskips, hskips'⟩⟩
      rw [ChipPorts.steps_cons, hlater, hfirst, List.append_assoc]

/-- **`PP_RxCFG` is the only register that is written.** -/
theorem calls_registers (pad : Nat) {accs : List Access} (h : ∀ acc ∈ accs, acc.IsCall) :
    Program.Ensures ok (performAll pad accs) fun tr _ => ∀ c : ChipPorts,
      ∃ later, (c.steps tr).registers = c.registers ++ later ∧ ∀ acc ∈ later, acc.Skips :=
  fun _ _ hrun _ c => registers_of_uses (calls_skip pad h none) hrun c nofun

end Registers

/-! ## §6. What the registers are. -/

/-- What a register was set to last. -/
def setting (r : UInt16) (accs : List RegisterAccess) : Option UInt16 :=
  accs.foldl (fun v acc =>
    match acc with
    | .wrote r' w => if r' = r then some w else v
    | .read _ _ => v) none

/-- A register that is not written keeps its setting. -/
theorem setting_append {r : UInt16} (accs : List RegisterAccess) {later : List RegisterAccess}
    (h : ∀ w, .wrote r w ∉ later) : setting r (accs ++ later) = setting r accs := by
  unfold setting
  rw [List.foldl_append]
  generalize accs.foldl _ none = v
  induction later with
  | nil => rfl
  | cons acc later ih =>
      have hrest : ∀ w, RegisterAccess.wrote r w ∉ later :=
        fun w hw => h w (List.mem_cons_of_mem _ hw)
      rw [List.foldl_cons]
      cases acc with
      | read r' w => exact ih hrest
      | wrote r' w =>
          have hne : r' ≠ r := by
            rintro rfl
            exact h w (List.mem_cons_self ..)
          show List.foldl _ (if r' = r then some w else v) later = v
          rw [if_neg hne]
          exact ih hrest

/-- The last write counts. -/
theorem setting_wrote (accs : List RegisterAccess) (r w : UInt16) {later : List RegisterAccess}
    (h : ∀ w, .wrote r w ∉ later) : setting r (accs ++ .wrote r w :: later) = some w := by
  rw [List.append_cons, setting_append _ h]
  unfold setting
  rw [List.foldl_append]
  exact if_pos rfl

/-- Settings for different registers are all in force. -/
theorem setting_written {settings : List Setting} (h : (settings.map Prod.fst).Nodup)
    (accs : List RegisterAccess) {r w : UInt16} (hmem : (r, w) ∈ settings) :
    setting r (accs ++ written settings) = some w := by
  obtain ⟨before, later, rfl⟩ := List.append_of_mem hmem
  rw [List.map_append, List.map_cons] at h
  have hlater : ∀ w', RegisterAccess.wrote r w' ∉ written later := by
    intro w' hin
    obtain ⟨⟨r', v⟩, hset, heq⟩ := List.mem_map.mp hin
    obtain ⟨rfl, rfl⟩ : r' = r ∧ v = w' := RegisterAccess.wrote.inj heq
    have hnodup := (List.nodup_cons.mp (List.nodup_append.mp h).2.1).1
    exact hnodup (List.mem_map.mpr ⟨_, hset, rfl⟩)
  unfold written at hlater ⊢
  rw [List.map_append, List.map_cons, ← List.append_assoc]
  exact setting_wrote _ r w hlater

/-- No register is set twice. -/
theorem configuration_nodup (hwaddr : List UInt8) :
    ((configuration hwaddr).map Prod.fst).Nodup := by
  show (([0, 2, 4].map fun i => PP_IA + UInt16.ofNat i) ++ InitSeq.map Prod.fst).Nodup
  decide

/-- `PP_RxCFG` is not among them. -/
theorem configuration_ne_rxcfg {hwaddr : List UInt8} {r w : UInt16}
    (h : (r, w) ∈ configuration hwaddr) : r ≠ PP_RxCFG := by
  have hin : r ∈ (configuration hwaddr).map Prod.fst := List.mem_map.mpr ⟨_, h, rfl⟩
  have hnot : PP_RxCFG ∉ ([0, 2, 4].map fun i => PP_IA + UInt16.ofNat i)
      ++ InitSeq.map Prod.fst := by
    decide
  rintro rfl
  exact hnot hin

/-! ## §7. The whole run. -/

/-- The port, with an lwIP that may answer anything. -/
abbrev anyBoard := boardBy fun _ => True

/-- The board, and how it was when the thread was created. -/
def setupEnv : Program.Env (Gpio.Board × Option Gpio.Board) SetupOp SetupOp.Ans
  | s, .mem_malloc, _, s' => s' = s
  | s, .nosTaskCreate, _, s' => s' = (s.1, some s.1)

/-- The board, and the board as it was when the thread was started. -/
abbrev initEnv := (anyBoard.onFst (Option Gpio.Board)).sum setupEnv

/-- Without a conflict the chip has been reset, has said that it is up, and has got its
settings. -/
structure SetUpWith (hwaddr : List UInt8) (es : List Gpio.BusEvent) : Prop where
  clean : .conflict ∉ es
  registers : ∃ polls, Polled polls ∧ ∀ c : ChipPorts, (c.events es).registers
    = c.registers ++ .wrote PP_SelfCTL POWER_ON_RESET :: (polls ++ written (configuration hwaddr))

section Run

variable {fuel pad : Nat} {s s₁ s₂ : Gpio.Board} {netif netif' : Interface}

/-- What `lowLevelInit` leaves, and all that is seen of it. -/
theorem exec_lowLevelInit (hquiet : s.lines.Quiet)
    (hrun : Program.Exec anyBoard s (lowLevelInit fuel netif) (some netif') s₁) :
    s₁.Idle ∧ ∃ es, s₁.log = s.log ++ es ∧ SetUpWith netif'.hwaddr es := by
  obtain ⟨_, s₀, hpins, hrest⟩ := Program.exec_bind.mp hrun
  obtain ⟨up, s', hchip, hret⟩ := Program.exec_bind.mp hrest
  have hpins := Program.exec_inl.mp (hpins.mono boardBy_board)
  have hsilent := Gpio.initPins_silent hquiet hpins
  obtain ⟨tr, htrace, hanswers, hport, hidle, hlog, hclean⟩ :=
    exec_on_pins (fun _ _ _ => trivial) (keeps_initChip fuel _) (Gpio.initPins_idle hpins) hchip
  cases up with
  | none =>
      obtain ⟨hnone, -⟩ := Program.exec_pure.mp hret
      exact absurd hnone nofun
  | some _ =>
      obtain ⟨hsome, rfl⟩ := Program.exec_pure.mp hret
      obtain rfl := Option.some.inj hsome
      obtain ⟨polls, hpolls, hregs⟩ := initChip_registers fuel _ tr _ htrace hanswers rfl
      refine ⟨hidle, _, ?_, hclean, polls, hpolls, fun c => ?_⟩
      · rw [hlog, hsilent]
      · rw [atChip_trace hport]
        exact hregs c

/-- **What `cs8900aIfInit` does**: nothing without memory; else it creates the thread when
the chip is set up. -/
theorem exec_cs8900aIfInit {err : InitErr} {started : Option Gpio.Board} (hquiet : s.lines.Quiet)
    (hrun : Program.Exec initEnv (s, none) (cs8900aIfInit fuel netif) (some (err, netif'))
      (s₁, started)) :
    (err = .ERR_MEM ∧ netif' = netif ∧ s₁ = s ∧ started = none)
      ∨ (err = .ERR_OK ∧ started = some s₁ ∧ s₁.Idle ∧ ∃ es,
        s₁.log = s.log ++ es ∧ SetUpWith netif'.hwaddr es) := by
  obtain ⟨memory, x, hmalloc, hrest⟩ := Program.exec_bind.mp hrun
  obtain rfl : x = (s, none) := Program.exec_performInr.mp hmalloc
  cases memory with
  | false =>
      -- out of memory: nothing has been done
      obtain ⟨hres, hstate⟩ := Program.exec_pure.mp hrest
      obtain ⟨rfl, rfl⟩ := Prod.mk.inj (Option.some.inj hres)
      obtain ⟨rfl, rfl⟩ := Prod.mk.inj hstate
      exact .inl ⟨rfl, rfl, rfl, rfl⟩
  | true =>
      obtain ⟨up, y, hinit, hrest⟩ := Program.exec_bind.mp hrest
      obtain ⟨hinit, hnone⟩ := Program.exec_onFst.mp (Program.exec_inl.mp hinit)
      cases up with
      | none =>
          -- the chip does not come up, and the call does not return
          obtain ⟨hres, -⟩ := Program.exec_pure.mp hrest
          exact absurd hres nofun
      | some netif₁ =>
          obtain ⟨_, z, hcreate, hret⟩ := Program.exec_bind.mp hrest
          obtain rfl : z = (y.1, some y.1) := Program.exec_performInr.mp hcreate
          obtain ⟨hres, hstate⟩ := Program.exec_pure.mp hret
          obtain ⟨rfl, rfl⟩ := Prod.mk.inj (Option.some.inj hres)
          obtain ⟨rfl, rfl⟩ := Prod.mk.inj hstate
          obtain ⟨hidle, hset⟩ := exec_lowLevelInit hquiet hinit
          exact .inr ⟨rfl, rfl, hidle, hset⟩

/-- **The chip keeps its settings**, whatever is sent and received afterwards, and from
reset on the bus is never in conflict. -/
theorem configured {started : Option Gpio.Board} {accs : List Access} (hquiet : s.lines.Quiet)
    (hcalls : ∀ acc ∈ accs, acc.IsCall)
    (hinit : Program.Exec initEnv (s, none) (cs8900aIfInit fuel netif) (some (.ERR_OK, netif'))
      (s₁, started))
    (hrun : Program.Exec anyBoard s₁ ((performAll pad accs).realize pinLevel) () s₂) :
    started = some s₁ ∧ ∃ es es', s₁.log = s.log ++ es ∧ s₂.log = s₁.log ++ es'
      ∧ SetUpWith netif'.hwaddr es ∧ .conflict ∉ es' ∧ ∀ (c : ChipPorts) (r w : UInt16),
        (r, w) ∈ configuration netif'.hwaddr →
          setting r (c.events (es ++ es')).registers = some w := by
  rcases exec_cs8900aIfInit hquiet hinit with ⟨herr, -⟩ | ⟨-, hstarted, hidle, es, hlog, hset⟩
  · exact absurd herr (by decide)
  -- the three calls use the ports of the driver only
  have hport : ∀ acc ∈ accs, acc.OnPort := by
    intro acc hacc
    have hcall := hcalls acc hacc
    cases acc with
    | cs8900aWrite addr data | cs8900aRead addr | cs8900aReadAddrHighFirst addr => exact hcall.elim
    | _ => trivial
  obtain ⟨tr, htrace, hanswers, hwords, -, hlog', hclean⟩ :=
    exec_on_pins (fun _ _ _ => trivial) (keeps_performAll pad hport) hidle hrun
  refine ⟨hstarted, es, _, hlog, hlog', hset, hclean, ?_⟩
  intro c r w hmem
  obtain ⟨polls, -, hregs⟩ := hset.registers
  obtain ⟨later, hlater, hskips⟩ := calls_registers pad hcalls tr () htrace hanswers
    (c.events es)
  -- later writes go to PP_RxCFG, which is not among the settings
  have hothers : ∀ w', RegisterAccess.wrote r w' ∉ later := fun w' hin =>
    absurd (hskips _ hin) (configuration_ne_rxcfg hmem)
  rw [ChipPorts.events_append, atChip_trace hwords, hlater, setting_append _ hothers, hregs,
    ← List.cons_append, ← List.append_assoc]
  exact setting_written (configuration_nodup _) _ hmem

end Run

/-! ## §8. A sample run. -/

/-- There is memory, and the chip is up at once. -/
def setupAnswer (s : Gpio.Board × Option Gpio.Board) :
    (op : SetupOp) → op.Ans × (Gpio.Board × Option Gpio.Board)
  | .mem_malloc => (true, s)
  | .nosTaskCreate => ((), s.1, some s.1)

/-- The answers of a chip that has come up. -/
def chipOf (s : Gpio.Board × Option Gpio.Board) (op : Gpio.Op ⊕ LwipOp) :
    Sum.elim Gpio.Op.Ans LwipOp.Ans op × (Gpio.Board × Option Gpio.Board) :=
  ((sampleAnswer twoByteChain s.1 op).1, (sampleAnswer twoByteChain s.1 op).2, s.2)

theorem boardBy_any (p : PbufChain) (s : Gpio.Board) (op : Gpio.Op ⊕ LwipOp) :
    anyBoard s op (sampleAnswer p s op).1 (sampleAnswer p s op).2 :=
  boardBy_answer (fun _ => trivial) (fun _ _ => trivial) (fun _ => trivial) s op

/-- They are possible answers. -/
theorem initEnv_answer (s : Gpio.Board × Option Gpio.Board) (op : (Gpio.Op ⊕ LwipOp) ⊕ SetupOp) :
    initEnv s op (Program.answerSum chipOf setupAnswer s op).1
      (Program.answerSum chipOf setupAnswer s op).2 := by
  cases op with
  | inl op => exact ⟨boardBy_any twoByteChain s.1 op, rfl⟩
  | inr op => cases op <;> rfl

/-- An interface as lwIP gives it to the driver. -/
def sampleInterface : Interface :=
  ⟨[], 0, [], [], ⟨192, 168, 0, 1⟩, ⟨255, 255, 255, 0⟩⟩

/-- At reset all pins are inputs. -/
def resetBoard : Gpio.Board := ⟨0, 0, 0x5a, []⟩

/-- After a reset of the processor all pins are inputs. -/
theorem resetBoard_quiet : resetBoard.lines.Quiet := Gpio.Lines.quiet_of_inputs rfl rfl

/-- From reset the chip is set up, and then receives a frame. -/
theorem configured_sample : ∃ (netif : Interface) (started : Option Gpio.Board)
      (s₁ s₂ : Gpio.Board),
    Program.Exec initEnv (resetBoard, none) (cs8900aIfInit 1 sampleInterface)
      (some (.ERR_OK, netif)) (s₁, started)
    ∧ Program.Exec anyBoard s₁ ((performAll 0 [.lowLevelInput 2]).realize pinLevel) () s₂
    ∧ started = some s₁ ∧ ∃ es es', s₁.log = resetBoard.log ++ es
      ∧ s₂.log = s₁.log ++ es' ∧ SetUpWith netif.hwaddr es ∧ .conflict ∉ es'
      ∧ ∀ (c : ChipPorts) (r w : UInt16), (r, w) ∈ configuration netif.hwaddr →
        setting r (c.events (es ++ es')).registers = some w := by
  have hinit := Program.exec_execWith initEnv_answer (cs8900aIfInit 1 sampleInterface)
    (resetBoard, none)
  have hok : ((cs8900aIfInit 1 sampleInterface).execWith (Program.answerSum chipOf setupAnswer)
      (resetBoard, none)).1 = some (.ERR_OK, { sampleInterface with
        hwaddr := [0x0, 0xbd, 0x3, 0x4, 0x5, 0x7]
        mtu := 1500
        flags := [.NETIF_FLAG_BROADCAST, .NETIF_FLAG_ETHARP, .NETIF_FLAG_LINK_UP]
        name := ['c', 's'] }) := by
    decide +kernel
  rw [hok] at hinit
  generalize ((cs8900aIfInit 1 sampleInterface).execWith _ _).2 = final at hinit
  obtain ⟨s₁, started⟩ := final
  have hrun := Program.exec_execWith (boardBy_any twoByteChain)
    ((performAll 0 [.lowLevelInput 2]).realize pinLevel) s₁
  have hcalls : ∀ acc ∈ [Access.lowLevelInput 2], acc.IsCall := by
    simp [Access.IsCall]
  exact ⟨_, started, s₁, _, hinit, hrun, configured resetBoard_quiet hcalls hinit hrun⟩

end PicoosLwip.Netif.Cs8900a
