/-
  PicoosLwip.Netif.Gpio — the bus routines of cs8900a_lpc_e2129.c, pin by pin.

  The chip hangs on a GPIO port of 32 pins: pins 4 to 7 are its address lines,
  16 to 23 its data lines, 12 is the read strobe IOR and 13 the write strobe IOW,
  both active low.  `IOSET` and `IOCLR` set and clear bits of the output latch,
  `IODIR` says which pins are outputs, and `IOPIN` reads the levels of the pins.

  The routines are `Program`s over these registers.  The environment is the port
  with the chip on it.  It writes down what happens on the bus: a byte that the
  chip takes when IOW goes high again, a byte that it drove until IOR does, and
  every state of the pins in which the bus would be in conflict.
-/
import PicoosLwip.Framework.Environment
import Mathlib.Algebra.Order.Group.Nat

namespace PicoosLwip.Netif.Gpio

open PicoosLwip.Framework

/-! ## §1. The registers and the routines. -/

/-- The read strobe; low is active. -/
def IOR : BitVec 32 := 1#32 <<< 12
/-- The write strobe; low is active. -/
def IOW : BitVec 32 := 1#32 <<< 13

/-- An access to the port's registers. -/
inductive Op where
  | IOSET (v : BitVec 32)
  | IOCLR (v : BitVec 32)
  | readIODIR
  | writeIODIR (v : BitVec 32)
  | IOPIN
  | IO_DELAY

/-- What is read. -/
def Op.Ans : Op → Type
  | .IOSET _ => Unit
  | .IOCLR _ => Unit
  | .readIODIR => BitVec 32
  | .writeIODIR _ => Unit
  | .IOPIN => BitVec 32
  | .IO_DELAY => Unit

/-- A routine of the driver. -/
abbrev Routine (α : Type) : Type := Program Op Op.Ans α

/-- Drive these pins high. -/
def IOSET (v : BitVec 32) : Routine Unit := Program.perform (Op.IOSET v)

/-- Drive these pins low. -/
def IOCLR (v : BitVec 32) : Routine Unit := Program.perform (Op.IOCLR v)

/-- Which pins are outputs. -/
def readIODIR : Routine (BitVec 32) := Program.perform Op.readIODIR

/-- Choose the outputs. -/
def writeIODIR (v : BitVec 32) : Routine Unit := Program.perform (Op.writeIODIR v)

/-- The levels of the pins. -/
def IOPIN : Routine (BitVec 32) := Program.perform Op.IOPIN

/-- Wait until the chip has the signal. -/
def IO_DELAY : Routine Unit := Program.perform Op.IO_DELAY

/-- "Data port to output": `IODIR |= 0xff << 16` -/
def dataToOutput : Routine Unit := do
  let dir ← readIODIR
  writeIODIR (dir ||| 0xff#32 <<< 16)

/-- "Data port to input": `IODIR &= ~(0xff << 16)` -/
def dataToInput : Routine Unit := do
  let dir ← readIODIR
  writeIODIR (dir &&& ~~~(0xff#32 <<< 16))

/-- "Put address on bus" -/
def putAddress (addr : Nat) : Routine Unit := do
  IOCLR (0xf#32 <<< 4)
  IOSET (BitVec.ofNat 32 addr <<< 4)

/-- "Write byte to data bus"; `v` is that byte, shifted to the data pins. -/
def putData (v : BitVec 32) : Routine Unit := do
  IOCLR (0xff#32 <<< 16)
  IOSET v

/-- "Toggle IOW-signal" -/
def toggleIOW : Routine Unit := do
  IOCLR IOW
  IO_DELAY
  IOSET IOW

/-- IOR low, `IOPIN`, IOR high. -/
def strobeIOR : Routine (BitVec 32) := do
  IOCLR IOR
  IO_DELAY
  let v ← IOPIN
  IOSET IOR
  pure v

/-- Two cycles for a word, the low byte at the even address. -/
def cs8900aWrite (addr : Nat) (data : BitVec 32) : Routine Unit := do
  dataToOutput
  -- low order byte first
  putAddress addr
  putData ((data &&& 0xff#32) <<< 16)
  toggleIOW
  -- high order byte second
  IOSET (1#32 <<< 4)
  putData (data >>> 8 <<< 16)
  toggleIOW

/-- Two cycles for a word, the low byte first. -/
def cs8900aRead (addr : Nat) : Routine (BitVec 32) := do
  dataToInput
  putAddress addr
  let low ← strobeIOR
  IOSET (1#32 <<< 4)
  let high ← strobeIOR
  pure ((low >>> 16 &&& 0xff#32) ||| (high >>> 8 &&& 0xff00#32))

/-- The same, but the high byte first. -/
def cs8900aReadAddrHighFirst (addr : Nat) : Routine (BitVec 32) := do
  dataToInput
  putAddress (addr + 1)
  let high ← strobeIOR
  IOCLR (1#32 <<< 4)
  let low ← strobeIOR
  pure ((high >>> 8 &&& 0xff00#32) ||| (low >>> 16 &&& 0xff#32))

/-- The bytes are `bytes[0]` and `bytes[1]`. -/
def cs8900aWriteTxBuf (b0 b1 : UInt8) : Routine Unit := do
  IOCLR (1#32 <<< 4)
  putData (b0.toBitVec.setWidth 32 <<< 16)
  toggleIOW
  IOSET (1#32 <<< 4)
  putData (b1.toBitVec.setWidth 32 <<< 16)
  toggleIOW

/-- Two cycles for two bytes of a frame. -/
def cs8900aReadRxBuf : Routine (UInt8 × UInt8) := do
  IOCLR (1#32 <<< 4)
  let v0 ← strobeIOR
  IOSET (1#32 <<< 4)
  let v1 ← strobeIOR
  pure (⟨(v0 >>> 16).setWidth 8⟩, ⟨(v1 >>> 16).setWidth 8⟩)

/-- The three statements of `lowLevelOutput` in front of the bytes of a pbuf. -/
def busOut (port : Nat) : Routine Unit := do
  dataToOutput
  putAddress port

/-- The three statements of `lowLevelInput` in front of the bytes of a frame. -/
def busIn (port : Nat) : Routine Unit := do
  dataToInput
  putAddress port

/-- What `lowLevelInit` does to the pins before it first accesses the chip. -/
def initPins : Routine Unit := do
  IOSET (IOR ||| IOW)
  let dir ← readIODIR
  writeIODIR (dir ||| ((0xff#32 <<< 16) ||| IOR ||| IOW ||| (0xf#32 <<< 4)))
  IOCLR (0xff#32 <<< 16)

/-! ## §2. The bus. -/

/-- The bits of a register that belong to the chip's lines. -/
structure Fields where
  addr : BitVec 4
  data : BitVec 8
  ior : Bool
  iow : Bool
  deriving DecidableEq

/-- Which pins mean what. -/
def fields (v : BitVec 32) : Fields :=
  ⟨v.extractLsb' 4 4, v.extractLsb' 16 8, v.getLsbD 12, v.getLsbD 13⟩

/-- The levels that the output latch gives the lines, and the directions. -/
structure Lines where
  level : Fields
  dir : Fields
  deriving DecidableEq

/-- The read strobe is active. -/
def Lines.iorLow (l : Lines) : Bool := l.dir.ior && !l.level.ior

/-- The write strobe is active. -/
def Lines.iowLow (l : Lines) : Bool := l.dir.iow && !l.level.iow

/-- Address and data stand still. -/
def Lines.Steady (l l' : Lines) : Prop :=
  l'.level.addr = l.level.addr ∧ l'.level.data = l.level.data
    ∧ l'.dir.addr = l.dir.addr ∧ l'.dir.data = l.dir.data

instance (l l' : Lines) : Decidable (l.Steady l') :=
  inferInstanceAs (Decidable (_ = _ ∧ _ = _ ∧ _ = _ ∧ _ = _))

/-- The lines may not go from `l` to `l'`: there both strobes are low, or IOW is low
and the data pins are not all outputs, or IOR is low and they are not all inputs, or
a strobe is low without an address; or a strobe was low and its address or data
does not stand still. -/
def Lines.Conflict (l l' : Lines) : Prop :=
  (l'.iorLow ∧ l'.iowLow) ∨ (l'.iowLow ∧ l'.dir.data ≠ 0xff) ∨ (l'.iorLow ∧ l'.dir.data ≠ 0)
    ∨ ((l'.iorLow ∨ l'.iowLow) ∧ l'.dir.addr ≠ 0xf) ∨ ((l.iorLow ∨ l.iowLow) ∧ ¬ l.Steady l')

instance (l l' : Lines) : Decidable (l.Conflict l') :=
  inferInstanceAs (Decidable ((_ ∧ _) ∨ (_ ∧ _) ∨ (_ ∧ _) ∨ ((_ ∨ _) ∧ _) ∨ ((_ ∨ _) ∧ _)))

/-- What the chip sees. -/
inductive BusEvent where
  /-- IOW goes high again: the chip takes `data` for the byte `addr`. -/
  | iow (addr : BitVec 4) (data : BitVec 8)
  /-- IOR goes high again: the chip drove `data` for the byte `addr`. -/
  | ior (addr : BitVec 4) (data : BitVec 8)
  | conflict
  deriving DecidableEq

/-- What is seen on the bus when the lines go from `l` to `l'` while the chip has
`drive` to drive. -/
def observed (drive : BitVec 8) (l l' : Lines) : List BusEvent :=
  if l.Conflict l' then [.conflict]
  else if l.iowLow ∧ ¬ l'.iowLow then [.iow l.level.addr l.level.data]
  else if l.iorLow ∧ ¬ l'.iorLow then [.ior l.level.addr drive]
  else []

/-- The port, the byte that the chip drives while IOR is low, and what was seen. -/
structure Board where
  out : BitVec 32
  dir : BitVec 32
  drive : BitVec 8
  log : List BusEvent

/-- Levels and directions of the pins on the bus. -/
def Board.lines (s : Board) : Lines := ⟨fields s.out, fields s.dir⟩

/-- The registers change; the chip may have another byte next, but not during a
strobe. -/
structure Board.Moves (s : Board) (out dir : BitVec 32) (s' : Board) : Prop where
  out : s'.out = out
  dir : s'.dir = dir
  drive : s.lines.iorLow → s'.drive = s.drive
  log : s'.log = s.log ++ observed s.drive s.lines s'.lines

/-- `IOPIN` may read `v`: outputs as they are in the latch, and at data pins that are
inputs, while IOR is low, what the chip drives. -/
def Board.Reads (s : Board) (v : BitVec 32) : Prop :=
  v &&& s.dir = s.out &&& s.dir ∧ (s.lines.iorLow →
    (fields v).data &&& ~~~(fields s.dir).data = s.drive &&& ~~~(fields s.dir).data)

/-- What each access does to the board. -/
def pinEnv : Program.Env Board Op Op.Ans
  | s, .IOSET v, _, s' => s.Moves (s.out ||| v) s.dir s'
  | s, .IOCLR v, _, s' => s.Moves (s.out &&& ~~~v) s.dir s'
  | s, .readIODIR, dir, s' => dir = s.dir ∧ s' = s
  | s, .writeIODIR v, _, s' => s.Moves s.out v s'
  | s, .IOPIN, v, s' => s.Reads v ∧ s' = s
  | s, .IO_DELAY, _, s' => s' = s

end PicoosLwip.Netif.Gpio
