/-
  PicoosLwip.Netif.PinProtocol — the CS8900A driver, down to the pins.

  The bus routines, which the driver's `Program` has as operations, are carried out
  on the GPIO port; lwIP's part does not touch it.  The frame-buffer routines set
  neither the directions of the data pins nor the upper address pins: they rely on
  what `lowLevelOutput` and `lowLevelInput` have set before.

  Main results:
    * `pinLevel_realizes`   — each operation has the pulses it stands for;
    * `keeps_lowLevelOutput`, `keeps_lowLevelInput` — the driver calls the frame-buffer
                              routines only where the bus is set up for them;
    * `accesses_on_pins`    — for any sequence of accesses, nothing else is seen on
                              the bus, and there is never a conflict.
-/
import PicoosLwip.Framework.Realize
import PicoosLwip.Netif.BusCycles
import PicoosLwip.Netif.Transmit

namespace PicoosLwip.Netif.Cs8900a

open PicoosLwip.Framework

/-! ## §1. The operations on the pins. -/

/-- What the driver calls of lwIP. -/
inductive LwipOp where
  | pbuf_alloc (len : UInt16)
  | pbuf_header (p : PbufChain) (increment : Int)
  | LINK_STATS_INC (stat : LinkStat)

/-- What lwIP answers. -/
def LwipOp.Ans : LwipOp → Type
  | .pbuf_alloc _ => Option PbufChain
  | .pbuf_header _ _ => PbufChain
  | .LINK_STATS_INC _ => Unit

/-- lwIP may answer anything, and leaves the port alone. -/
def lwipEnv : Program.Env Gpio.Board LwipOp LwipOp.Ans
  | s, _, _, s' => s' = s

/-- A program on the board. -/
abbrev PinLevel (α : Type) : Type :=
  Program (Gpio.Op ⊕ LwipOp) (Sum.elim Gpio.Op.Ans LwipOp.Ans) α

/-- A word that a read routine returns, as the driver uses it. -/
def wordOf (r : Gpio.Routine (BitVec 32)) : Gpio.Routine UInt16 := do
  let v ← r
  pure ⟨v.setWidth 16⟩

/-- The routine for each call of the driver. -/
def pinLevel : (op : Op) → PinLevel op.Ans
  | .cs8900aWrite addr data => (Gpio.cs8900aWrite addr (data.toBitVec.setWidth 32)).inl
  | .cs8900aRead addr => (wordOf (Gpio.cs8900aRead addr)).inl
  | .cs8900aReadAddrHighFirst addr => (wordOf (Gpio.cs8900aReadAddrHighFirst addr)).inl
  | .busOut port => (Gpio.busOut port).inl
  | .busIn port => (Gpio.busIn port).inl
  | .cs8900aWriteTxBuf b0 b1 => (Gpio.cs8900aWriteTxBuf b0 b1).inl
  | .cs8900aReadRxBuf _ _ => Gpio.cs8900aReadRxBuf.inl
  | .pbuf_alloc len => Program.performInr (LwipOp.pbuf_alloc len)
  | .pbuf_header p increment => Program.performInr (LwipOp.pbuf_header p increment)
  | .LINK_STATS_INC stat => Program.performInr (LwipOp.LINK_STATS_INC stat)

/-! ## §2. What is to be seen on the bus. -/

/-- Two pulses for a word: its low byte at the port, its high byte at the next. -/
def wordPulses (pulse : BitVec 4 → BitVec 8 → Gpio.BusEvent) (addr : Nat) (w : UInt16) :
    List Gpio.BusEvent :=
  [pulse (BitVec.ofNat 4 addr) (w.toBitVec.extractLsb' 0 8),
    pulse (BitVec.ofNat 4 (addr + 1)) (w.toBitVec.extractLsb' 8 8)]

/-- Two pulses for two bytes of a frame, at the even byte of the port and then at the
odd one. -/
def framePulses (pulse : BitVec 4 → BitVec 8 → Gpio.BusEvent) (port : Nat) (b : UInt8 × UInt8) :
    List Gpio.BusEvent :=
  [pulse (BitVec.ofNat 4 port) b.1.toBitVec, pulse (BitVec.ofNat 4 (port + 1)) b.2.toBitVec]

/-- What an operation with its answer stands for. -/
def BusStep.pulses : BusStep → List Gpio.BusEvent
  | ⟨.cs8900aWrite addr data, _⟩ => wordPulses .iow addr data
  | ⟨.cs8900aRead addr, w⟩ => wordPulses .ior addr w
  | ⟨.cs8900aReadAddrHighFirst addr, w⟩ => (wordPulses .ior addr w).reverse
  | ⟨.cs8900aWriteTxBuf b0 b1, _⟩ => framePulses .iow TX_FRAME_PORT (b0, b1)
  | ⟨.cs8900aReadRxBuf _ _, b⟩ => framePulses .ior RX_FRAME_PORT b
  | _ => []

/-- No call is meant to break a rule. -/
theorem BusStep.conflict_not_mem (e : BusStep) : Gpio.BusEvent.conflict ∉ e.pulses := by
  obtain ⟨op, ans⟩ := e
  cases op <;> simp [BusStep.pulses, wordPulses, framePulses]

/-! ## §3. How the bus is set up. -/

/-- `sending` and `receiving`: the frame port is on the address pins, and the data pins
have the direction for it. -/
inductive BusMode where
  | free
  | sending
  | receiving
  deriving DecidableEq

/-- The port of a word: even, and on four pins. -/
def WordPort (addr : Nat) : Prop := addr % 2 = 0 ∧ addr < 16

instance (addr : Nat) : Decidable (WordPort addr) := inferInstanceAs (Decidable (_ ∧ _))

/-- In which mode of the bus each call is allowed, and which it leaves. -/
def busModes : Modes Op BusMode where
  allowed m op :=
    match op with
    | .cs8900aWrite addr _ | .cs8900aRead addr | .cs8900aReadAddrHighFirst addr => WordPort addr
    | .busOut port => port = TX_FRAME_PORT
    | .busIn port => port = RX_FRAME_PORT
    -- the address and the direction are those of an earlier busOut
    | .cs8900aWriteTxBuf _ _ => m = .sending
    | .cs8900aReadRxBuf _ _ => m = .receiving
    | .pbuf_alloc _ | .pbuf_header _ _ | .LINK_STATS_INC _ => True
  next m op :=
    match op with
    -- a word access leaves another address on the pins
    | .cs8900aWrite _ _ | .cs8900aRead _ | .cs8900aReadAddrHighFirst _ => .free
    | .busOut _ => .sending
    | .busIn _ => .receiving
    | _ => m

/-- The pins in each mode. -/
def SetUp : BusMode → Gpio.Board → Prop
  | .free, s => s.Idle
  | .sending, s => ∃ addr data, s.Rests addr data 0xff s.log
      ∧ addr &&& ~~~1 = BitVec.ofNat 4 TX_FRAME_PORT
  | .receiving, s => ∃ addr data, s.Rests addr data 0 s.log
      ∧ addr &&& ~~~1 = BitVec.ofNat 4 RX_FRAME_PORT

/-- In every mode both strobes are high. -/
theorem SetUp.rests {m : BusMode} {s : Gpio.Board} (h : SetUp m s) :
    ∃ addr data dir, s.Rests addr data dir s.log := by
  cases m with
  | free => exact ⟨_, _, _, Gpio.Board.Idle.rests h⟩
  | sending =>
      obtain ⟨addr, data, hrests, -⟩ := h
      exact ⟨addr, data, 0xff, hrests⟩
  | receiving =>
      obtain ⟨addr, data, hrests, -⟩ := h
      exact ⟨addr, data, 0, hrests⟩

/-- So the board is idle. -/
theorem SetUp.idle {m : BusMode} {s : Gpio.Board} (h : SetUp m s) : s.Idle := by
  obtain ⟨_, _, _, hrests⟩ := h.rests
  exact hrests.idle

/-- The routine's result, as a word of the driver. -/
theorem exec_wordOf {r : Gpio.Routine (BitVec 32)} {s s' : Gpio.Board} {w : UInt16} :
    Program.Exec Gpio.pinEnv s (wordOf r) w s'
      ↔ ∃ v, Program.Exec Gpio.pinEnv s r v s' ∧ w = ⟨v.setWidth 16⟩ := by
  unfold wordOf
  rw [Program.exec_bind]
  constructor
  · rintro ⟨v, s₁, hrun, hret⟩
    obtain ⟨rfl, rfl⟩ := Program.exec_pure.mp hret
    exact ⟨v, hrun, rfl⟩
  · rintro ⟨v, hrun, rfl⟩
    exact ⟨v, s', hrun, Program.exec_pure.mpr ⟨rfl, rfl⟩⟩

/-- Sixteen bits are all that a word read has. -/
theorem setWidth_word (w : BitVec 16) : (⟨(w.setWidth 32).setWidth 16⟩ : UInt16) = ⟨w⟩ := by
  rw [BitVec.setWidth_setWidth_of_le _ (by decide), BitVec.setWidth_eq]

/-- Data pins out, and an address of the frame port. -/
theorem setUp_sending {s : Gpio.Board} {addr : BitVec 4} {data : BitVec 8}
    {log : List Gpio.BusEvent} (h : s.Rests addr data 0xff log)
    (hport : addr &&& ~~~1 = BitVec.ofNat 4 TX_FRAME_PORT) : SetUp .sending s :=
  ⟨addr, data, ⟨h.lines, rfl⟩, hport⟩

/-- Data pins in, and an address of the frame port. -/
theorem setUp_receiving {s : Gpio.Board} {addr : BitVec 4} {data : BitVec 8}
    {log : List Gpio.BusEvent} (h : s.Rests addr data 0 log)
    (hport : addr &&& ~~~1 = BitVec.ofNat 4 RX_FRAME_PORT) : SetUp .receiving s :=
  ⟨addr, data, ⟨h.lines, rfl⟩, hport⟩

/-- **Each operation has the pulses it stands for**, in every mode that allows it, and
leaves the bus as the next mode says. -/
theorem pinLevel_realizes :
    Program.Realizes (Gpio.pinEnv.sum lwipEnv) pinLevel busModes SetUp Gpio.Board.log
      BusStep.pulses := by
  intro m op s ans s' hset hallowed hrun
  obtain ⟨addr, data, dir, hrests⟩ := hset.rests
  cases op with
  | cs8900aWrite port w =>
      obtain ⟨heven, hlt⟩ := hallowed
      have hdone := Gpio.exec_cs8900aWrite heven hlt hrests (Program.exec_inl.mp hrun)
      exact ⟨hdone.idle, hdone.log⟩
  | cs8900aRead port =>
      obtain ⟨heven, hlt⟩ := hallowed
      obtain ⟨v, hread, hans⟩ := exec_wordOf.mp (Program.exec_inl.mp hrun)
      obtain ⟨w, rfl, hdone⟩ := Gpio.exec_cs8900aRead heven hlt hrests hread
      rw [setWidth_word] at hans
      rw [hans]
      exact ⟨hdone.idle, hdone.log⟩
  | cs8900aReadAddrHighFirst port =>
      obtain ⟨heven, hlt⟩ := hallowed
      obtain ⟨v, hread, hans⟩ := exec_wordOf.mp (Program.exec_inl.mp hrun)
      obtain ⟨w, rfl, hdone⟩ := Gpio.exec_cs8900aReadAddrHighFirst heven hlt hrests hread
      rw [setWidth_word] at hans
      rw [hans]
      exact ⟨hdone.idle, hdone.log⟩
  | busOut port =>
      obtain rfl : port = TX_FRAME_PORT := hallowed
      have hdone := Gpio.exec_busOut (by decide) hrests (Program.exec_inl.mp hrun)
      exact ⟨setUp_sending hdone (by decide), hdone.log.trans (List.append_nil _).symm⟩
  | busIn port =>
      obtain rfl : port = RX_FRAME_PORT := hallowed
      have hdone := Gpio.exec_busIn (by decide) hrests (Program.exec_inl.mp hrun)
      exact ⟨setUp_receiving hdone (by decide), hdone.log.trans (List.append_nil _).symm⟩
  | cs8900aWriteTxBuf b0 b1 =>
      obtain rfl : m = .sending := hallowed
      obtain ⟨addr, data, hrests, hport⟩ := hset
      have hdone := Gpio.exec_cs8900aWriteTxBuf (by decide) (by decide) hport hrests
        (Program.exec_inl.mp hrun)
      exact ⟨setUp_sending hdone (by decide), hdone.log⟩
  | cs8900aReadRxBuf k u =>
      obtain rfl : m = .receiving := hallowed
      obtain ⟨addr, data, hrests, hport⟩ := hset
      have hdone := Gpio.exec_cs8900aReadRxBuf (by decide) (by decide) hport hrests
        (Program.exec_inl.mp hrun)
      exact ⟨setUp_receiving hdone (by decide), hdone.log⟩
  | pbuf_alloc len | pbuf_header p increment | LINK_STATS_INC stat =>
      -- the port is left alone
      obtain rfl : s' = s := Program.exec_performInr.mp hrun
      exact ⟨hset, (List.append_nil _).symm⟩

/-! ## §4. The driver keeps to the modes. -/

section Driver

variable {m : BusMode}

/-- The program may be started in mode `m` and ends in one of those that `Q` allows. -/
abbrev KeepsModes {α : Type} (m : BusMode) (p : Driver α) (Q : BusMode → Prop) : Prop :=
  Program.Keeps busModes m p Q

/-- It ends in whatever mode. -/
abbrev AnyMode : BusMode → Prop := fun _ => True

/-- A word may be written in any mode. -/
theorem keeps_cs8900aWrite {addr : Nat} (h : WordPort addr) (data : UInt16) :
    KeepsModes m (cs8900aWrite addr data) AnyMode := Program.Keeps.perform h trivial

/-- A word may be read in any mode. -/
theorem keeps_cs8900aRead {addr : Nat} (h : WordPort addr) :
    KeepsModes m (cs8900aRead addr) AnyMode := Program.Keeps.perform h trivial

theorem keeps_cs8900aReadAddrHighFirst {addr : Nat} (h : WordPort addr) :
    KeepsModes m (cs8900aReadAddrHighFirst addr) AnyMode := Program.Keeps.perform h trivial

theorem keeps_stat (stat : LinkStat) : KeepsModes m (LINK_STATS_INC stat) AnyMode :=
  Program.Keeps.perform trivial trivial

/-- A register is selected and read, and then the program goes on. -/
theorem keeps_readRegister {α : Type} (r : UInt16) {k : UInt16 → Driver α} {Q : BusMode → Prop}
    (hk : ∀ w m', KeepsModes m' (k w) Q) :
    KeepsModes m (cs8900aWrite ADD_PORT r >>= fun _ => cs8900aRead DATA_PORT >>= k) Q := by
  refine Program.Keeps.bind (keeps_cs8900aWrite (by decide) _) ?_
  intro _ m₁ _
  refine Program.Keeps.bind (keeps_cs8900aRead (by decide)) ?_
  intro w m₂ _
  exact hk w m₂

/-- A frame may be skipped in any mode. -/
theorem keeps_cs8900aSkipFrame : KeepsModes m cs8900aSkipFrame AnyMode :=
  keeps_readRegister _ fun _ _ => keeps_cs8900aWrite (by decide) _

theorem keeps_dropPadding (pad : Nat) (p : PbufChain) :
    KeepsModes m (dropPadding pad p) (· = m) := by
  unfold dropPadding
  split
  next => exact Program.Keeps.ret rfl
  next => exact Program.Keeps.perform trivial rfl

theorem keeps_reclaimPadding (pad : Nat) (p : PbufChain) :
    KeepsModes m (reclaimPadding pad p) (· = m) := by
  unfold reclaimPadding
  split
  next => exact Program.Keeps.ret rfl
  next => exact Program.Keeps.perform trivial rfl

/-- The bus status may be read in any mode. -/
theorem keeps_readyForTx : KeepsModes m readyForTx AnyMode :=
  keeps_readRegister _ fun _ _ => Program.Keeps.ret trivial

/-- And as often as it takes. -/
theorem keeps_waitForTx (u : Nat) : KeepsModes m (waitForTx u) AnyMode := by
  induction u generalizing m with
  | zero => exact keeps_readyForTx
  | succ u ih =>
      refine Program.Keeps.bind keeps_readyForTx ?_
      intro ready m₁ _
      cases ready with
      | true => exact Program.Keeps.ret trivial
      | false => exact Program.Keeps.bind keeps_cs8900aSkipFrame fun _ _ _ => ih

/-- The loop over the bytes of a pbuf stays at the frame port. -/
theorem keeps_sendPayload (q : Pbuf) (u : Nat) :
    KeepsModes .sending (sendPayload q u) (· = .sending) := by
  fun_induction sendPayload q u with
  | case1 u h ih =>
      refine Program.Keeps.bind (R := (· = .sending)) (Program.Keeps.perform rfl rfl) ?_
      rintro _ _ rfl
      exact ih
  | case2 u h => exact Program.Keeps.ret rfl

/-- Each pbuf sets the bus up for its own bytes. -/
theorem keeps_sendSegments (qs : List Pbuf) : KeepsModes m (sendSegments qs) AnyMode := by
  induction qs generalizing m with
  | nil => exact Program.Keeps.ret trivial
  | cons q qs ih =>
      refine Program.Keeps.bind (R := (· = .sending)) (Program.Keeps.perform rfl rfl) ?_
      rintro _ _ rfl
      exact Program.Keeps.bind (keeps_sendPayload q 0) fun _ _ _ => ih

/-- **`lowLevelOutput` keeps to the modes.** -/
theorem keeps_lowLevelOutput (pad : Nat) (p : PbufChain) :
    KeepsModes m (lowLevelOutput pad p) AnyMode := by
  refine Program.Keeps.bind (keeps_dropPadding pad p) ?_
  intro p m₁ _
  refine Program.Keeps.bind (keeps_cs8900aWrite (by decide) _) ?_
  intro _ m₂ _
  refine Program.Keeps.bind (keeps_cs8900aWrite (by decide) _) ?_
  intro _ m₃ _
  refine Program.Keeps.bind (keeps_waitForTx 8) ?_
  intro ready m₄ _
  cases ready with
  | false => exact Program.Keeps.ret trivial
  | true =>
      refine Program.Keeps.bind (keeps_sendSegments _) ?_
      intro _ m₅ _
      refine Program.Keeps.bind (keeps_reclaimPadding pad p) ?_
      intro p m₆ _
      exact Program.Keeps.bind (keeps_stat _) fun _ _ _ => Program.Keeps.ret trivial

/-- A pbuf is filled while the bus is set up for reads. -/
theorem keeps_readPayload (fuel k : Nat) (q : Pbuf) (u : UInt16) :
    KeepsModes .receiving (readPayload fuel k q u) (· = .receiving) := by
  induction fuel generalizing q u with
  | zero => exact Program.Keeps.ret rfl
  | succ fuel ih =>
      unfold readPayload
      split
      next =>
        refine Program.Keeps.bind (R := (· = .receiving)) (Program.Keeps.perform rfl rfl) ?_
        rintro b _ rfl
        exact ih _ _
      next => exact Program.Keeps.ret rfl

/-- So are all of them. -/
theorem keeps_readSegments (fuel k : Nat) (qs : List Pbuf) :
    KeepsModes .receiving (readSegments fuel k qs) (· = .receiving) := by
  induction qs generalizing k with
  | nil => exact Program.Keeps.ret rfl
  | cons q qs ih =>
      refine Program.Keeps.bind (keeps_readPayload fuel k q 0) ?_
      rintro copied _ rfl
      cases copied with
      | none => exact Program.Keeps.ret rfl
      | some q =>
          refine Program.Keeps.bind (ih (k + 1)) ?_
          rintro rest _ rfl
          cases rest <;> exact Program.Keeps.ret rfl

/-- The bus is set up once, for all pbufs of the chain. -/
theorem keeps_receiveInto (pad fuel : Nat) (p : PbufChain) :
    KeepsModes m (receiveInto pad fuel p) AnyMode := by
  refine Program.Keeps.bind (keeps_dropPadding pad p) ?_
  intro p m₁ _
  refine Program.Keeps.bind (R := (· = .receiving)) (Program.Keeps.perform rfl rfl) ?_
  rintro _ _ rfl
  refine Program.Keeps.bind (keeps_readPayload fuel 0 p.first 0) ?_
  rintro first _ rfl
  cases first with
  | none => exact Program.Keeps.ret trivial
  | some first =>
      refine Program.Keeps.bind (keeps_readSegments fuel 1 p.next) ?_
      rintro next _ rfl
      cases next with
      | none => exact Program.Keeps.ret trivial
      | some next =>
          refine Program.Keeps.bind (keeps_reclaimPadding pad _) ?_
          intro p m₂ _
          exact Program.Keeps.bind (keeps_stat _) fun _ _ _ => Program.Keeps.ret trivial

/-- **`lowLevelInput` keeps to the modes.** -/
theorem keeps_lowLevelInput (pad fuel : Nat) : KeepsModes m (lowLevelInput pad fuel) AnyMode := by
  refine keeps_readRegister _ fun event m₁ => ?_
  split
  next => exact Program.Keeps.ret trivial
  next =>
    refine Program.Keeps.bind (keeps_cs8900aReadAddrHighFirst (by decide)) ?_
    intro _ m₂ _
    refine Program.Keeps.bind (keeps_cs8900aReadAddrHighFirst (by decide)) ?_
    intro len m₃ _
    refine Program.Keeps.bind (R := AnyMode) (Program.Keeps.perform trivial trivial) ?_
    intro p m₄ _
    cases p with
    | some p =>
        refine Program.Keeps.bind (keeps_receiveInto pad fuel p) ?_
        intro copied m₅ _
        cases copied <;> exact Program.Keeps.ret trivial
    | none =>
        refine Program.Keeps.bind keeps_cs8900aSkipFrame ?_
        intro _ m₅ _
        refine Program.Keeps.bind (keeps_stat _) ?_
        intro _ m₆ _
        exact Program.Keeps.bind (keeps_stat _) fun _ _ _ => Program.Keeps.ret trivial

/-! ## §5. Any sequence of accesses. -/

/-- What one thread may do with the chip. -/
inductive Access where
  | cs8900aWrite (addr : Nat) (data : UInt16)
  | cs8900aRead (addr : Nat)
  | cs8900aReadAddrHighFirst (addr : Nat)
  | cs8900aSkipFrame
  | lowLevelOutput (p : PbufChain)
  | lowLevelInput (fuel : Nat)

/-- The words that are written and read have their ports. -/
def Access.OnPort : Access → Prop
  | .cs8900aWrite addr _ | .cs8900aRead addr | .cs8900aReadAddrHighFirst addr => WordPort addr
  | .cs8900aSkipFrame | .lowLevelOutput _ | .lowLevelInput _ => True

instance : (acc : Access) → Decidable acc.OnPort
  | .cs8900aWrite addr _ | .cs8900aRead addr | .cs8900aReadAddrHighFirst addr =>
      inferInstanceAs (Decidable (WordPort addr))
  | .cs8900aSkipFrame | .lowLevelOutput _ | .lowLevelInput _ => inferInstanceAs (Decidable True)

/-- The call. -/
def Access.perform (pad : Nat) : Access → Driver Unit
  | .cs8900aWrite addr data => Cs8900a.cs8900aWrite addr data
  | .cs8900aRead addr => do
      let _ ← Cs8900a.cs8900aRead addr
  | .cs8900aReadAddrHighFirst addr => do
      let _ ← Cs8900a.cs8900aReadAddrHighFirst addr
  | .cs8900aSkipFrame => Cs8900a.cs8900aSkipFrame
  | .lowLevelOutput p => do
      let _ ← Cs8900a.lowLevelOutput pad p
  | .lowLevelInput fuel => do
      let _ ← Cs8900a.lowLevelInput pad fuel

/-- One after the other. -/
def performAll (pad : Nat) : List Access → Driver Unit
  | [] => pure ()
  | acc :: accs => do
      acc.perform pad
      performAll pad accs

/-- Each access is allowed in any mode. -/
theorem keeps_access (pad : Nat) {acc : Access} (h : acc.OnPort) :
    KeepsModes m (acc.perform pad) AnyMode := by
  cases acc with
  | cs8900aWrite addr data => exact keeps_cs8900aWrite h data
  | cs8900aRead addr =>
      exact Program.Keeps.bind (keeps_cs8900aRead h) fun _ _ _ => Program.Keeps.ret trivial
  | cs8900aReadAddrHighFirst addr =>
      exact Program.Keeps.bind (keeps_cs8900aReadAddrHighFirst h)
        fun _ _ _ => Program.Keeps.ret trivial
  | cs8900aSkipFrame => exact keeps_cs8900aSkipFrame
  | lowLevelOutput p =>
      exact Program.Keeps.bind (keeps_lowLevelOutput pad p) fun _ _ _ => Program.Keeps.ret trivial
  | lowLevelInput fuel =>
      exact Program.Keeps.bind (keeps_lowLevelInput pad fuel)
        fun _ _ _ => Program.Keeps.ret trivial

/-- So are all of them in a row. -/
theorem keeps_performAll (pad : Nat) {accs : List Access} (h : ∀ acc ∈ accs, acc.OnPort) :
    KeepsModes m (performAll pad accs) AnyMode := by
  induction accs generalizing m with
  | nil => exact Program.Keeps.ret trivial
  | cons acc accs ih =>
      obtain ⟨hacc, haccs⟩ := List.forall_mem_cons.mp h
      exact Program.Keeps.bind (keeps_access pad hacc) fun _ _ _ => ih haccs

end Driver

/-- The pins, with lwIP. -/
abbrev boardEnv : Program.Env Gpio.Board (Gpio.Op ⊕ LwipOp) (Sum.elim Gpio.Op.Ans LwipOp.Ans) :=
  Gpio.pinEnv.sum lwipEnv

/-- The registers change; the chip goes on with the same byte. -/
def movedTo (s : Gpio.Board) (out dir : BitVec 32) : Gpio.Board :=
  ⟨out, dir, s.drive, s.log ++ Gpio.observed s.drive s.lines ⟨Gpio.fields out, Gpio.fields dir⟩⟩

/-- A port on which `IOPIN` reads the latch at outputs, and at inputs the chip, which
always drives the same byte. -/
def pinAnswer : (s : Gpio.Board) → (op : Gpio.Op) → op.Ans × Gpio.Board
  | s, .IOSET v => ((), movedTo s (s.out ||| v) s.dir)
  | s, .IOCLR v => ((), movedTo s (s.out &&& ~~~v) s.dir)
  | s, .readIODIR => (s.dir, s)
  | s, .writeIODIR v => ((), movedTo s s.out v)
  | s, .IOPIN => ((s.out &&& s.dir) ||| (s.drive.setWidth 32 <<< 16 &&& ~~~s.dir), s)
  | s, .IO_DELAY => ((), s)

/-- They are possible answers of the pins. -/
theorem pinEnv_pinAnswer (s : Gpio.Board) (op : Gpio.Op) :
    Gpio.pinEnv s op (pinAnswer s op).1 (pinAnswer s op).2 := by
  cases op with
  | IOSET v | IOCLR v | writeIODIR v => exact ⟨rfl, rfl, fun _ => rfl, rfl⟩
  | readIODIR => exact ⟨rfl, rfl⟩
  | IO_DELAY => rfl
  | IOPIN =>
      refine ⟨⟨?_, fun _ => ?_⟩, rfl⟩
      · ext i hi
        simp only [pinAnswer, BitVec.getElem_and, BitVec.getElem_or, BitVec.getElem_not]
        cases s.dir[i] <;> simp
      · have hand : (Gpio.fields (s.out &&& s.dir)).data
            = (Gpio.fields s.out).data &&& (Gpio.fields s.dir).data := BitVec.extractLsb'_and
        simp only [pinAnswer, Gpio.fields_or, Gpio.fields_clear, Gpio.fields_byte, Gpio.Fields.or,
          Gpio.Fields.clear, hand]
        ext i hi
        simp only [BitVec.getElem_and, BitVec.getElem_or, BitVec.getElem_not]
        cases (Gpio.fields s.dir).data[i] <;> simp

/-- The strobes are high, nothing else is set, and the data pins are inputs. -/
def sampleBoard : Gpio.Board :=
  ⟨Gpio.IOR ||| Gpio.IOW, Gpio.IOR ||| Gpio.IOW ||| 0xf#32 <<< 4, 0x5a, []⟩

end PicoosLwip.Netif.Cs8900a
