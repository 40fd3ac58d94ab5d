/-
  PicoosLwip.Netif.ChipPorts — what the CS8900A makes of the bytes on its bus.

  The chip has sixteen byte addresses.  The bytes of a word are written one after the
  other, the low one first.  `ADD_PORT` holds the number of a register, and a word
  written at `DATA_PORT` goes to it; `TX_CMD_PORT` and `TX_LEN_PORT` announce a frame,
  whose bytes follow at the frame port.

  The driver deals in words and frames, the pins carry bytes.  Here the two levels are
  tied together: the chip, which looks at the bus byte by byte, gets what the driver's
  operations stand for.

  Main results:
    * `atChip_pulses`    — one operation of the driver, at the chip;
    * `exec_on_pins`     — a program that keeps to the bus protocol, run on the pins;
    * `frame_on_pins`    — a frame that is sent arrives in the chip, byte for byte;
    * `received_on_pins` — a frame that is received is what the chip gave out.
-/
import PicoosLwip.Framework.Answers
import PicoosLwip.Netif.PinProtocol
import PicoosLwip.Netif.Receive

namespace PicoosLwip.Netif.Cs8900a

open PicoosLwip.Framework

/-! ## §1. The chip's side of the bus. -/

/-- A word that went to a register, or came from one. -/
inductive RegisterAccess where
  | wrote (register word : UInt16)
  | read (register word : UInt16)
  deriving DecidableEq

/-- What has gone over the chip's ports. -/
structure ChipPorts where
  /-- The register that `DATA_PORT` stands for. -/
  pointer : UInt16
  /-- The byte last written at the even byte of `DATA_PORT`, and the byte last read there. -/
  lowIn : BitVec 8
  lowOut : BitVec 8
  registers : List RegisterAccess
  txCmd : UInt16
  txLen : UInt16
  /-- The bytes at the frame port since a length was last announced. -/
  frame : List UInt8

/-- The word with another low byte. -/
def setLow (w : UInt16) (b : BitVec 8) : UInt16 := ⟨w.toBitVec.extractLsb' 8 8 ++ b⟩

/-- The word with another high byte. -/
def setHigh (w : UInt16) (b : BitVec 8) : UInt16 := ⟨b ++ w.toBitVec.extractLsb' 0 8⟩

/-- `IOW` goes high at the byte `addr`. -/
def ChipPorts.iow (c : ChipPorts) (addr : BitVec 4) (b : BitVec 8) : ChipPorts :=
  match addr.toNat with
  -- TX_FRAME_PORT
  | 0x0 | 0x1 => { c with frame := c.frame ++ [⟨b⟩] }
  -- TX_CMD_PORT
  | 0x4 => { c with txCmd := setLow c.txCmd b }
  | 0x5 => { c with txCmd := setHigh c.txCmd b }
  -- TX_LEN_PORT; its high byte makes room for a new frame
  | 0x6 => { c with txLen := setLow c.txLen b }
  | 0x7 => { c with txLen := setHigh c.txLen b, frame := [] }
  -- ADD_PORT
  | 0xA => { c with pointer := setLow c.pointer b }
  | 0xB => { c with pointer := setHigh c.pointer b }
  -- DATA_PORT: the high byte writes the register
  | 0xC => { c with lowIn := b }
  | 0xD => { c with registers := c.registers ++ [.wrote c.pointer ⟨b ++ c.lowIn⟩] }
  | _ => c

/-- `IOR` goes high at the byte `addr`. -/
def ChipPorts.ior (c : ChipPorts) (addr : BitVec 4) (b : BitVec 8) : ChipPorts :=
  match addr.toNat with
  | 0xC => { c with lowOut := b }
  | 0xD => { c with registers := c.registers ++ [.read c.pointer ⟨b ++ c.lowOut⟩] }
  | _ => c

/-- What the chip does at one event on the bus. -/
def ChipPorts.event (c : ChipPorts) : Gpio.BusEvent → ChipPorts
  | .iow addr data => c.iow addr data
  | .ior addr data => c.ior addr data
  | .conflict => c

/-- A row of events. -/
def ChipPorts.events (c : ChipPorts) (es : List Gpio.BusEvent) : ChipPorts :=
  es.foldl ChipPorts.event c

@[simp] theorem ChipPorts.events_append (c : ChipPorts) (es es' : List Gpio.BusEvent) :
    c.events (es ++ es') = (c.events es).events es' := List.foldl_append

/-! ## §2. The driver's side. -/

/-- A word that is written. -/
def ChipPorts.word (c : ChipPorts) (addr : Nat) (w : UInt16) : ChipPorts :=
  if addr = ADD_PORT then { c with pointer := w }
  else if addr = DATA_PORT then
    { c with lowIn := w.toBitVec.extractLsb' 0 8, registers := c.registers ++ [.wrote c.pointer w] }
  else if addr = TX_CMD_PORT then { c with txCmd := w }
  else if addr = TX_LEN_PORT then { c with txLen := w, frame := [] }
  else if addr = TX_FRAME_PORT then
    { c with frame := c.frame ++ [⟨w.toBitVec.extractLsb' 0 8⟩, ⟨w.toBitVec.extractLsb' 8 8⟩] }
  else c

/-- A word that is read. -/
def ChipPorts.wordRead (c : ChipPorts) (addr : Nat) (w : UInt16) : ChipPorts :=
  if addr = DATA_PORT then
    { c with lowOut := w.toBitVec.extractLsb' 0 8, registers := c.registers ++ [.read c.pointer w] }
  else c

/-- What an operation of the driver means to the chip.  Where the high byte comes first
the low one is that of an earlier read. -/
def ChipPorts.step (c : ChipPorts) : BusStep → ChipPorts
  | ⟨.cs8900aWrite addr data, _⟩ => c.word addr data
  | ⟨.cs8900aRead addr, w⟩ => c.wordRead addr w
  | ⟨.cs8900aReadAddrHighFirst addr, (w : UInt16)⟩ =>
      if addr = DATA_PORT then
        { c with
          lowOut := w.toBitVec.extractLsb' 0 8
          registers := c.registers ++ [.read c.pointer ⟨w.toBitVec.extractLsb' 8 8 ++ c.lowOut⟩] }
      else c
  | ⟨.cs8900aWriteTxBuf b0 b1, _⟩ => { c with frame := c.frame ++ [b0, b1] }
  | _ => c

/-- What it does in a whole trace. -/
def ChipPorts.steps (c : ChipPorts) (tr : List BusStep) : ChipPorts := tr.foldl ChipPorts.step c

@[simp] theorem ChipPorts.steps_cons (c : ChipPorts) (e : BusStep) (tr : List BusStep) :
    c.steps (e :: tr) = (c.step e).steps tr := rfl

@[simp] theorem ChipPorts.steps_append (c : ChipPorts) (tr tr' : List BusStep) :
    c.steps (tr ++ tr') = (c.steps tr).steps tr' := List.foldl_append

/-! ## §3. The two levels. -/

/-- A word is its two bytes. -/
theorem bytes_append (x : BitVec 16) : x.extractLsb' 8 8 ++ x.extractLsb' 0 8 = x := by
  ext i hi
  simp only [BitVec.getElem_append, BitVec.getElem_extractLsb']
  split
  · rw [Nat.zero_add]
    exact BitVec.getLsbD_eq_getElem hi
  · rw [show 8 + (i - 8) = i by omega]
    exact BitVec.getLsbD_eq_getElem hi

/-- A word is its two bytes. -/
theorem word_of_bytes (w : UInt16) :
    (⟨w.toBitVec.extractLsb' 8 8 ++ w.toBitVec.extractLsb' 0 8⟩ : UInt16) = w :=
  UInt16.toBitVec_inj.mp (bytes_append w.toBitVec)

/-- Low byte, then high byte: the word is written. -/
theorem setHigh_setLow (w v : UInt16) :
    setHigh (setLow w (v.toBitVec.extractLsb' 0 8)) (v.toBitVec.extractLsb' 8 8) = v := by
  unfold setHigh setLow
  rw [BitVec.extractLsb'_append_eq_right]
  exact word_of_bytes v

/-- The even ports below sixteen. -/
theorem WordPort.cases {addr : Nat} (h : WordPort addr) : addr = 0 ∨ addr = 2 ∨ addr = 4
    ∨ addr = 6 ∨ addr = 8 ∨ addr = 10 ∨ addr = 12 ∨ addr = 14 := by
  obtain ⟨heven, hlt⟩ := h
  omega

/-- **A word that is written, byte by byte.** -/
theorem events_write {addr : Nat} (h : WordPort addr) (c : ChipPorts) (w : UInt16) :
    c.events (wordPulses .iow addr w) = c.word addr w := by
  obtain ⟨pointer, lowIn, lowOut, registers, txCmd, txLen, frame⟩ := c
  rcases h.cases with rfl | rfl | rfl | rfl | rfl | rfl | rfl | rfl
  · show (⟨pointer, lowIn, lowOut, registers, txCmd, txLen, (frame ++ [_]) ++ [_]⟩ : ChipPorts) = _
    rw [List.append_assoc]
    rfl
  · rfl
  · show (⟨pointer, lowIn, lowOut, registers, setHigh (setLow txCmd _) _, txLen, frame⟩
      : ChipPorts) = _
    rw [setHigh_setLow]
    rfl
  · show (⟨pointer, lowIn, lowOut, registers, txCmd, setHigh (setLow txLen _) _, []⟩
      : ChipPorts) = _
    rw [setHigh_setLow]
    rfl
  · rfl
  · show (⟨setHigh (setLow pointer _) _, lowIn, lowOut, registers, txCmd, txLen, frame⟩
      : ChipPorts) = _
    rw [setHigh_setLow]
    rfl
  · show (⟨pointer, w.toBitVec.extractLsb' 0 8, lowOut, registers
        ++ [.wrote pointer ⟨w.toBitVec.extractLsb' 8 8 ++ w.toBitVec.extractLsb' 0 8⟩], txCmd,
      txLen, frame⟩ : ChipPorts) = _
    rw [word_of_bytes]
    rfl
  · rfl

/-- **A word that is read, byte by byte.** -/
theorem events_read {addr : Nat} (h : WordPort addr) (c : ChipPorts) (w : UInt16) :
    c.events (wordPulses .ior addr w) = c.wordRead addr w := by
  obtain ⟨pointer, lowIn, lowOut, registers, txCmd, txLen, frame⟩ := c
  rcases h.cases with rfl | rfl | rfl | rfl | rfl | rfl | rfl | rfl
  case inr.inr.inr.inr.inr.inr.inl =>
    show (⟨pointer, lowIn, w.toBitVec.extractLsb' 0 8, registers
        ++ [.read pointer ⟨w.toBitVec.extractLsb' 8 8 ++ w.toBitVec.extractLsb' 0 8⟩], txCmd,
      txLen, frame⟩ : ChipPorts) = _
    rw [word_of_bytes]
    rfl
  all_goals rfl

/-- A word has its port. -/
def BusStep.OnPort : BusStep → Prop
  | ⟨.cs8900aWrite addr _, _⟩ | ⟨.cs8900aRead addr, _⟩ | ⟨.cs8900aReadAddrHighFirst addr, _⟩ =>
      WordPort addr
  | _ => True

/-- **An operation of the driver, at the chip.** -/
theorem atChip_pulses {e : BusStep} (h : e.OnPort) (c : ChipPorts) :
    c.events e.pulses = c.step e := by
  obtain ⟨op, ans⟩ := e
  cases op with
  | cs8900aWrite addr data => exact events_write h c data
  | cs8900aRead addr => exact events_read h c ans
  | cs8900aReadAddrHighFirst addr =>
      obtain ⟨pointer, lowIn, lowOut, registers, txCmd, txLen, frame⟩ := c
      rcases WordPort.cases h with rfl | rfl | rfl | rfl | rfl | rfl | rfl | rfl <;> rfl
  | cs8900aWriteTxBuf b0 b1 =>
      obtain ⟨pointer, lowIn, lowOut, registers, txCmd, txLen, frame⟩ := c
      show (⟨pointer, lowIn, lowOut, registers, txCmd, txLen, (frame ++ [_]) ++ [_]⟩
        : ChipPorts) = _
      rw [List.append_assoc]
      rfl
  | _ => rfl

/-- **The chip sees the trace**: the pulses of the calls do to it what the calls do. -/
theorem atChip_trace {tr : List BusStep} (h : ∀ e ∈ tr, e.OnPort) (c : ChipPorts) :
    c.events (tr.flatMap BusStep.pulses) = c.steps tr := by
  induction tr generalizing c with
  | nil => rfl
  | cons e tr ih =>
      obtain ⟨he, htr⟩ := List.forall_mem_cons.mp h
      rw [List.flatMap_cons, ChipPorts.events_append, atChip_pulses he, ih htr]
      rfl

/-! ## §4. Programs on the pins. -/

/-- An operation of lwIP, as the driver performs it. -/
def LwipOp.step : (op : LwipOp) → op.Ans → BusStep
  | .pbuf_alloc len, ans => ⟨.pbuf_alloc len, ans⟩
  | .pbuf_header p increment, ans => ⟨.pbuf_header p increment, ans⟩
  | .LINK_STATS_INC stat, ans => ⟨.LINK_STATS_INC stat, ans⟩

/-- The port, with an lwIP that answers as `ok` says. -/
def boardBy (ok : BusStep → Prop) :
    Program.Env Gpio.Board (Gpio.Op ⊕ LwipOp) (Sum.elim Gpio.Op.Ans LwipOp.Ans)
  | s, .inl op, ans, s' => Gpio.pinEnv s op ans s'
  | s, .inr op, ans, s' => ok (op.step ans) ∧ s' = s

/-- The driver's own bus routines. -/
def Op.OnBus : Op → Prop
  | .pbuf_alloc _ | .pbuf_header _ _ | .LINK_STATS_INC _ => False
  | _ => True

section OnPins

variable {ok : BusStep → Prop} {s s' : Gpio.Board}

/-- What lwIP answers is nothing to the pins. -/
theorem boardBy_board (s : Gpio.Board) (op : Gpio.Op ⊕ LwipOp)
    (ans : Sum.elim Gpio.Op.Ans LwipOp.Ans op) (s' : Gpio.Board) (h : boardBy ok s op ans s') :
    boardEnv s op ans s' := by
  cases op with
  | inl op => exact h
  | inr op => exact h.2

/-- The routines realise the calls, whatever lwIP answers. -/
theorem pinLevel_realizes_by : Program.Realizes (boardBy ok) pinLevel busModes SetUp Gpio.Board.log
    BusStep.pulses := fun m op s ans s' hset hallowed hrun =>
  pinLevel_realizes m op s ans s' hset hallowed (hrun.mono boardBy_board)

/-- lwIP answers through the pins as well. -/
theorem ok_of_pins (hbus : ∀ op ans, op.OnBus → ok ⟨op, ans⟩) {op : Op} {ans : op.Ans}
    (h : Program.Exec (boardBy ok) s (pinLevel op) ans s') : ok ⟨op, ans⟩ := by
  cases op with
  | pbuf_alloc len =>
      have hans : ok ⟨.pbuf_alloc len, ans⟩ ∧ s' = s := Program.exec_perform.mp h
      exact hans.1
  | pbuf_header p increment =>
      have hans : ok ⟨.pbuf_header p increment, ans⟩ ∧ s' = s := Program.exec_perform.mp h
      exact hans.1
  | LINK_STATS_INC stat =>
      have hans : ok ⟨.LINK_STATS_INC stat, ans⟩ ∧ s' = s := Program.exec_perform.mp h
      exact hans.1
  | _ => exact hbus _ _ trivial

/-- **A program on the pins**: the bus ends idle, nothing on it was in conflict, and it
has seen the pulses of a trace of the program. -/
theorem exec_on_pins {α : Type} {p : Driver α} {Q : BusMode → Prop} {a : α}
    (hbus : ∀ op ans, op.OnBus → ok ⟨op, ans⟩) (hp : KeepsModes .free p Q) (hidle : s.Idle)
    (hrun : Program.Exec (boardBy ok) s (p.realize pinLevel) a s') :
    ∃ tr, Program.Trace p tr a ∧ (∀ e ∈ tr, ok e) ∧ (∀ e : BusStep, e ∈ tr → e.OnPort) ∧ s'.Idle
      ∧ s'.log = s.log ++ tr.flatMap BusStep.pulses ∧ .conflict ∉ tr.flatMap BusStep.pulses := by
  obtain ⟨tr, m, htrace, -, hset, hlog, hall⟩ := Program.exec_realize_meeting ok
    pinLevel_realizes_by (fun _ _ _ _ _ _ _ hop => ok_of_pins hbus hop) hp hidle hrun
  have hport : ∀ e : BusStep, e ∈ tr → e.OnPort := by
    intro e he
    obtain ⟨-, m, hallowed⟩ := hall e he
    obtain ⟨op, ans⟩ := e
    cases op with
    | cs8900aWrite addr data | cs8900aRead addr | cs8900aReadAddrHighFirst addr => exact hallowed
    | _ => trivial
  refine ⟨tr, htrace, fun e he => (hall e he).1, hport, hset.idle, hlog, ?_⟩
  intro hmem
  obtain ⟨e, -, he⟩ := List.mem_flatMap.mp hmem
  exact BusStep.conflict_not_mem e he

end OnPins

/-! ## §5. A frame that is sent. -/

/-- Of the words only those for registers. -/
def Op.KeepsFrame : Op → Prop
  | .cs8900aWrite addr _ => addr = ADD_PORT ∨ addr = DATA_PORT
  | _ => True

/-- What was announced stays, and the frame grows by what is strobed. -/
theorem steps_keepsFrame {tr : List BusStep} (h : ∀ e ∈ tr, e.1.KeepsFrame) (c : ChipPorts) :
    (c.steps tr).txCmd = c.txCmd ∧ (c.steps tr).txLen = c.txLen
      ∧ (c.steps tr).frame = c.frame ++ strobed tr := by
  induction tr generalizing c with
  | nil => exact ⟨rfl, rfl, (List.append_nil _).symm⟩
  | cons e tr ih =>
      obtain ⟨he, htr⟩ := List.forall_mem_cons.mp h
      obtain ⟨hcmd, hlen, hframe⟩ := ih htr (c.step e)
      have hone : (c.step e).txCmd = c.txCmd ∧ (c.step e).txLen = c.txLen
          ∧ (c.step e).frame = c.frame ++ e.strobed := by
        obtain ⟨op, ans⟩ := e
        cases op with
        | cs8900aWrite addr data =>
            rcases he with rfl | rfl <;> exact ⟨rfl, rfl, (List.append_nil _).symm⟩
        | cs8900aRead addr | cs8900aReadAddrHighFirst addr =>
            by_cases haddr : addr = DATA_PORT <;>
              simp [ChipPorts.step, ChipPorts.wordRead, haddr, BusStep.strobed]
        | cs8900aWriteTxBuf b0 b1 => exact ⟨rfl, rfl, rfl⟩
        | _ => exact ⟨rfl, rfl, (List.append_nil _).symm⟩
      refine ⟨hcmd.trans hone.1, hlen.trans hone.2.1, ?_⟩
      show ((c.step e).steps tr).frame = c.frame ++ (e.strobed ++ strobed tr)
      rw [hframe, hone.2.2, List.append_assoc]

/-- Register ports are not the frame port. -/
theorem register_write {addr : Nat} (h : addr = ADD_PORT ∨ addr = DATA_PORT) (data : UInt16) :
    (cs8900aWrite addr data).AllOps Op.KeepsFrame := Program.AllOps.perform h

/-- Nothing of a frame is written. -/
theorem skipFrame_keepsFrame : cs8900aSkipFrame.AllOps Op.KeepsFrame := by
  apply Program.AllOps.bind (register_write (.inl rfl) _)
  intro _
  apply Program.AllOps.bind (Program.AllOps.perform trivial)
  intro cfg
  exact register_write (.inr rfl) _

/-- Nor while the bus status is read. -/
theorem readyForTx_keepsFrame : readyForTx.AllOps Op.KeepsFrame := by
  apply Program.AllOps.bind (register_write (.inl rfl) _)
  intro _
  exact Program.AllOps.bind (Program.AllOps.perform trivial) fun _ => Program.AllOps.pure _

/-- Nor while the driver waits. -/
theorem waitForTx_keepsFrame (u : Nat) : (waitForTx u).AllOps Op.KeepsFrame := by
  induction u with
  | zero => exact readyForTx_keepsFrame
  | succ u ih =>
      apply Program.AllOps.bind readyForTx_keepsFrame
      intro ready
      split
      · exact Program.AllOps.pure _
      · exact Program.AllOps.bind skipFrame_keepsFrame fun _ => ih

theorem sendPayload_keepsFrame (q : Pbuf) (u : Nat) : (sendPayload q u).AllOps Op.KeepsFrame := by
  fun_induction sendPayload q u with
  | case1 u h ih => exact Program.AllOps.bind (Program.AllOps.perform trivial) fun _ => ih
  | case2 u h => exact Program.AllOps.pure _

/-- The payload goes to the frame port and nowhere else. -/
theorem sendSegments_keepsFrame (qs : List Pbuf) : (sendSegments qs).AllOps Op.KeepsFrame := by
  induction qs with
  | nil => exact Program.AllOps.pure _
  | cons q qs ih =>
      apply Program.AllOps.bind (Program.AllOps.perform trivial)
      intro _
      exact Program.AllOps.bind (sendPayload_keepsFrame q 0) fun _ => ih

theorem reclaimPadding_keepsFrame (pad : Nat) (p : PbufChain) :
    (reclaimPadding pad p).AllOps Op.KeepsFrame := by
  unfold reclaimPadding
  split
  next => exact Program.AllOps.pure _
  next => exact Program.AllOps.perform trivial

/-- A call on the bus is no `pbuf_header`. -/
theorem headerBy_of_onBus {hdr : PbufChain → Int → PbufChain} (op : Op) (ans : op.Ans)
    (h : op.OnBus) : HeaderBy hdr ⟨op, ans⟩ := by
  cases op with
  | pbuf_header p increment => exact h.elim
  | _ => trivial

/-- The command, the length, and then the frame. -/
theorem lowLevelOutput_order {hdr : PbufChain → Int → PbufChain} (pad : Nat) (p : PbufChain) :
    Program.Ensures (HeaderBy hdr) (lowLevelOutput pad p) fun tr _ => ∃ tr₀ tr₁,
      tr = tr₀ ++ ⟨.cs8900aWrite TX_CMD_PORT TX_START_ALL_BYTES, ()⟩
        :: ⟨.cs8900aWrite TX_LEN_PORT (withoutPadding hdr pad p).tot_len, ()⟩ :: tr₁
      ∧ Silent tr₀ ∧ ∀ e ∈ tr₁, e.1.KeepsFrame := by
  refine Program.Ensures.bind (dropPadding_spec (P := Silent) (fun _ h => h) ⟨rfl, rfl⟩
    (fun _ _ _ => ⟨rfl, rfl⟩) pad p) ?_
  rintro tr₀ q ⟨hsilent, rfl⟩
  refine Program.Ensures.call fun _ _ => Program.Ensures.call fun _ _ => ?_
  intro tr₁ r hrun _
  refine ⟨tr₀, tr₁, rfl, hsilent, hrun.allOps ?_⟩
  apply Program.AllOps.bind (waitForTx_keepsFrame 8)
  intro ready
  split
  · apply Program.AllOps.bind (sendSegments_keepsFrame _)
    intro _
    apply Program.AllOps.bind (reclaimPadding_keepsFrame _ _)
    intro p
    exact Program.AllOps.bind (Program.AllOps.perform trivial) fun _ => Program.AllOps.pure _
  · exact Program.AllOps.pure _

/-- What the driver's operations leave in the chip. -/
theorem steps_lowLevelOutput {hdr : PbufChain → Int → PbufChain} {pad : Nat} {p p' : PbufChain}
    {tr : List BusStep} (hrun : Program.Trace (lowLevelOutput pad p) tr (.ERR_OK, p'))
    (hanswers : ∀ e ∈ tr, HeaderBy hdr e) (c : ChipPorts) :
    (c.steps tr).txCmd = TX_START_ALL_BYTES
      ∧ (c.steps tr).txLen = (withoutPadding hdr pad p).tot_len
      ∧ (c.steps tr).frame = (withoutPadding hdr pad p).segments.flatMap padded := by
  obtain ⟨-, hstr⟩ := lowLevelOutput_spec pad p tr _ hrun hanswers rfl
  obtain ⟨tr₀, tr₁, rfl, hsilent, hkeep⟩ := lowLevelOutput_order pad p tr _ hrun hanswers
  have hlater : strobed tr₁ = (withoutPadding hdr pad p).segments.flatMap padded := by
    rw [← hstr, strobed_append, hsilent.1]
    rfl
  -- the length starts an empty frame
  obtain ⟨hcmd, hlen, hframe⟩ := steps_keepsFrame hkeep
    (((c.steps tr₀).word TX_CMD_PORT TX_START_ALL_BYTES).word TX_LEN_PORT
      (withoutPadding hdr pad p).tot_len)
  rw [ChipPorts.steps_append]
  exact ⟨hcmd, hlen, hframe.trans hlater⟩

/-- The chip has been told to send `data`, and has it. -/
structure ChipPorts.Holds (c : ChipPorts) (data : List UInt8) : Prop where
  txCmd : c.txCmd = TX_START_ALL_BYTES
  txLen : c.txLen.toNat = data.length
  frame : FilledTo c.frame data

/-- **A frame that is sent arrives in the chip**, byte for byte and whatever was there
before, exactly when the fillers are harmless. -/
theorem frame_on_pins {hdr : PbufChain → Int → PbufChain} (hhdr : PbufHeader hdr) {pad : Nat}
    {p p' : PbufChain} {s s' : Gpio.Board} (htot : p.Consistent) (hidle : s.Idle)
    (hrun : Program.Exec (boardBy (HeaderBy hdr)) s ((lowLevelOutput pad p).realize pinLevel)
      (.ERR_OK, p') s') :
    s'.Idle ∧ ∃ es, s'.log = s.log ++ es ∧ .conflict ∉ es ∧ ∀ c : ChipPorts,
      (c.events es).Holds (dataOf (withoutPadding hdr pad p).segments)
        ↔ FillersHarmless (withoutPadding hdr pad p).segments := by
  obtain ⟨tr, htrace, hanswers, hport, hidle', hlog, hconflict⟩ :=
    exec_on_pins headerBy_of_onBus (keeps_lowLevelOutput pad p) hidle hrun
  refine ⟨hidle', _, hlog, hconflict, fun c => ?_⟩
  have hcons : (withoutPadding hdr pad p).Consistent := hhdr.consistent htot
  obtain ⟨hcmd, hlen, hframe⟩ := steps_lowLevelOutput htrace hanswers c
  rw [atChip_trace hport, ← filledTo_iff, ← hframe]
  constructor
  · exact fun h => h.frame
  · intro h
    refine ⟨hcmd, ?_, h⟩
    rw [hlen, hcons.length_dataOf]

/-! ## §6. A frame that is received. -/

/-- What the chip gives out at its frame port. -/
def givenOut : Gpio.BusEvent → List UInt8
  | .ior addr data => if addr.toNat ≤ 1 then [⟨data⟩] else []
  | _ => []

/-- What the chip has given out at the frame port. -/
def frameRead (es : List Gpio.BusEvent) : List UInt8 := es.flatMap givenOut

/-- The bytes of a word, the high one first. -/
def highFirst (w : UInt16) : List UInt8 :=
  [⟨w.toBitVec.extractLsb' 8 8⟩, ⟨w.toBitVec.extractLsb' 0 8⟩]

/-- What is read there in a trace. -/
def readAtFrame (tr : List BusStep) : List UInt8 := frameRead (tr.flatMap BusStep.pulses)

@[simp] theorem readAtFrame_append (tr tr' : List BusStep) :
    readAtFrame (tr ++ tr') = readAtFrame tr ++ readAtFrame tr' := by
  unfold readAtFrame frameRead
  rw [List.flatMap_append, List.flatMap_append]

/-- The operations of the copy loops and around them. -/
def Op.Copies : Op → Prop
  | .busIn _ | .cs8900aReadRxBuf _ _ | .pbuf_header _ _ | .LINK_STATS_INC _ => True
  | _ => False

/-- Copying reads the frame only. -/
theorem readAtFrame_copies {tr : List BusStep} (h : ∀ e ∈ tr, e.1.Copies) :
    readAtFrame tr = delivered tr := by
  induction tr with
  | nil => rfl
  | cons e tr ih =>
      obtain ⟨he, htr⟩ := List.forall_mem_cons.mp h
      have hone : readAtFrame [e] = e.delivered := by
        obtain ⟨op, ans⟩ := e
        cases op with
        | busIn port | cs8900aReadRxBuf k u | pbuf_header p increment | LINK_STATS_INC stat => rfl
        | _ => exact he.elim
      show readAtFrame ([e] ++ tr) = e.delivered ++ delivered tr
      rw [readAtFrame_append, hone, ih htr]

theorem dropPadding_copies (pad : Nat) (p : PbufChain) :
    (dropPadding pad p).AllOps Op.Copies := by
  unfold dropPadding
  split
  next => exact Program.AllOps.pure _
  next => exact Program.AllOps.perform trivial

theorem reclaimPadding_copies (pad : Nat) (p : PbufChain) :
    (reclaimPadding pad p).AllOps Op.Copies := by
  unfold reclaimPadding
  split
  next => exact Program.AllOps.pure _
  next => exact Program.AllOps.perform trivial

theorem readPayload_copies (fuel k : Nat) (q : Pbuf) (u : UInt16) :
    (readPayload fuel k q u).AllOps Op.Copies := by
  induction fuel generalizing q u with
  | zero => exact Program.AllOps.pure _
  | succ fuel ih =>
      unfold readPayload
      split
      · exact Program.AllOps.bind (Program.AllOps.perform trivial) fun b => ih _ _
      · exact Program.AllOps.pure _

/-- The pbufs are filled from the frame port. -/
theorem readSegments_copies (fuel k : Nat) (qs : List Pbuf) :
    (readSegments fuel k qs).AllOps Op.Copies := by
  induction qs generalizing k with
  | nil => exact Program.AllOps.pure _
  | cons q qs ih =>
      apply Program.AllOps.bind (readPayload_copies fuel k q 0)
      intro copied
      cases copied with
      | none => exact Program.AllOps.pure _
      | some q =>
          apply Program.AllOps.bind (ih (k + 1))
          intro rest
          cases rest <;> exact Program.AllOps.pure _

/-- So is the chain with its padding. -/
theorem receiveInto_copies (pad fuel : Nat) (p : PbufChain) :
    (receiveInto pad fuel p).AllOps Op.Copies := by
  apply Program.AllOps.bind (dropPadding_copies pad p)
  intro p
  apply Program.AllOps.bind (Program.AllOps.perform trivial)
  intro _
  apply Program.AllOps.bind (readPayload_copies fuel 0 p.first 0)
  intro first
  cases first with
  | none => exact Program.AllOps.pure _
  | some first =>
      apply Program.AllOps.bind (readSegments_copies fuel 1 p.next)
      intro next
      cases next with
      | none => exact Program.AllOps.pure _
      | some next =>
          apply Program.AllOps.bind (reclaimPadding_copies pad _)
          intro p
          exact Program.AllOps.bind (Program.AllOps.perform trivial) fun _ => Program.AllOps.pure _

section Reception

variable {hdr : PbufChain → Int → PbufChain} {pad fuel : Nat} {p : PbufChain}

/-- Either there is no chain, and of the frame at most its status and length were read;
or the chain holds what was read behind these, as many bytes as announced. -/
def TakenOut (hdr : PbufChain → Int → PbufChain) (pad : Nat) (bs : List UInt8)
    (r : Option (Option PbufChain)) : Prop :=
  (r = some none ∧ (bs = [] ∨ ∃ stat len, bs = highFirst stat ++ highFirst len))
    ∨ ∃ q stat len, r = some (some (withPadding hdr pad q))
      ∧ (dataOf q.segments).length = len.toNat
      ∧ bs = highFirst stat ++ highFirst len ++ dataOf q.segments

/-- Pbufs of the same shape have the same length in all. -/
theorem sumLen_of_shape {qs qs' : List Pbuf} (h : List.Forall₂ SameShape qs qs') :
    sumLen qs' = sumLen qs := by
  induction h with
  | nil => rfl
  | cons hq _ ih =>
      unfold sumLen
      rw [hq.2, ih]

/-- A chain that was allocated for `len` bytes and the padding has room for `len`. -/
theorem length_of_allocated (hhdr : PbufHeader hdr) (htot : p.Consistent)
    (hpad : pad ≤ p.first.len.toNat) {len : UInt16} (hlen : p.tot_len = len + UInt16.ofNat pad)
    {q : PbufChain}
    (hshape : List.Forall₂ SameShape (withoutPadding hdr pad p).segments q.segments) :
    (dataOf q.segments).length = len.toNat := by
  have hsum := congrArg UInt16.toNat hlen
  rw [UInt16.toNat_add, UInt16.toNat_ofNat'] at hsum
  have hlt : len.toNat < 2 ^ 16 := len.toNat_lt
  have hall : p.tot_len.toNat = p.first.len.toNat + sumLen p.next := htot
  have hmax : p.first.len.toNat < 2 ^ 16 := p.first.len.toNat_lt
  rw [dataOf_length, sumLen_of_shape hshape, hhdr.withoutPadding_of_le hpad]
  show (p.first.drop pad).len.toNat + sumLen p.next = len.toNat
  rw [Pbuf.drop_len hpad]
  omega

/-- Skipping takes nothing out. -/
theorem skipFrame_atFrame :
    Program.Ensures (ReceivesInto hdr p) cs8900aSkipFrame fun tr _ => readAtFrame tr = [] :=
  Program.Ensures.call fun _ _ => Program.Ensures.call fun _ _ => Program.Ensures.call fun _ _ =>
    Program.Ensures.ret rfl

/-- **What `lowLevelInput` takes out of the chip.** -/
theorem lowLevelInput_takes (hhdr : PbufHeader hdr) (htot : p.Consistent)
    (hpad : pad ≤ p.first.len.toNat)
    (heven : ∀ q ∈ (withoutPadding hdr pad p).segments, q.len.toNat % 2 = 0)
    (hfuel : 2 ^ 15 ≤ fuel) :
    Program.Ensures (ReceivesInto hdr p) (lowLevelInput pad fuel) fun tr r =>
      TakenOut hdr pad (readAtFrame tr) r := by
  refine Program.Ensures.call fun _ _ => Program.Ensures.call fun (event : UInt16) _ => ?_
  show Program.Ensures _ (if event &&& 0xd00 = 0 then _ else _) _
  split
  -- no frame, so nothing is taken
  next => exact Program.Ensures.ret (.inl ⟨rfl, .inl rfl⟩)
  next =>
    refine Program.Ensures.call fun stat _ => Program.Ensures.call fun len _ =>
      Program.Ensures.call fun ans hans => ?_
    rcases hans with rfl | ⟨rfl, hlen⟩
    · -- no pbuf: status and length are taken, and the rest is skipped
      show Program.Ensures _ (cs8900aSkipFrame >>= _) _
      refine Program.Ensures.bind skipFrame_atFrame ?_
      intro tr _ hskip
      refine Program.Ensures.call fun _ _ => Program.Ensures.call fun _ _ => Program.Ensures.ret ?_
      refine .inl ⟨rfl, .inr ⟨stat, len, ?_⟩⟩
      show highFirst stat ++ (highFirst len ++ readAtFrame (tr ++ [_, _])) = _
      rw [readAtFrame_append, hskip]
      rfl
    · -- behind status and length the chain takes what is read
      show Program.Ensures _ (receiveInto pad fuel p >>= _) _
      refine Program.Ensures.bind (R := fun tr r => readAtFrame tr = delivered tr ∧ ∃ q,
        r = some (withPadding hdr pad q)
          ∧ List.Forall₂ SameShape (withoutPadding hdr pad p).segments q.segments
          ∧ dataOf q.segments = delivered tr) ?_ ?_
      · intro tr r htr hall
        obtain ⟨-, hfilled⟩ := receiveInto_spec (fun e => ReceivesInto.headerBy) hfuel heven tr r
          htr hall
        exact ⟨readAtFrame_copies (htr.allOps (receiveInto_copies pad fuel p)), hfilled⟩
      · rintro tr _ ⟨hread, q, rfl, hshape, hdata⟩
        refine Program.Ensures.ret (.inr ⟨q, stat, len, rfl,
          length_of_allocated hhdr htot hpad hlen.symm hshape, ?_⟩)
        show highFirst stat ++ (highFirst len ++ readAtFrame (tr ++ [])) = _
        rw [List.append_nil, hread, hdata, List.append_assoc]

/-- A call on the bus allocates nothing. -/
theorem receivesInto_of_onBus (op : Op) (ans : op.Ans) (h : op.OnBus) :
    ReceivesInto hdr p ⟨op, ans⟩ := by
  cases op with
  | pbuf_alloc len | pbuf_header p increment => exact h.elim
  | _ => trivial

/-- **A frame that is received**: the chain has the bytes that the chip gave out, in order
and as many as it had announced. -/
theorem received_on_pins (hhdr : PbufHeader hdr) (htot : p.Consistent)
    (hpad : pad ≤ p.first.len.toNat)
    (heven : ∀ q ∈ (withoutPadding hdr pad p).segments, q.len.toNat % 2 = 0)
    (hfuel : 2 ^ 15 ≤ fuel) {r : Option (Option PbufChain)} {s s' : Gpio.Board} (hidle : s.Idle)
    (hrun : Program.Exec (boardBy (ReceivesInto hdr p)) s
      ((lowLevelInput pad fuel).realize pinLevel) r s') :
    s'.Idle ∧ ∃ es, s'.log = s.log ++ es ∧ .conflict ∉ es ∧ TakenOut hdr pad (frameRead es) r := by
  obtain ⟨tr, htrace, hanswers, -, hidle', hlog, hconflict⟩ :=
    exec_on_pins receivesInto_of_onBus (keeps_lowLevelInput pad fuel) hidle hrun
  refine ⟨hidle', _, hlog, hconflict, ?_⟩
  exact lowLevelInput_takes hhdr htot hpad heven hfuel tr r htrace hanswers

end Reception

/-! ## §7. Two sample frames. -/

/-- The registers change, and the chip drives the byte that is addressed. -/
def drivenTo (chip : BitVec 4 → BitVec 8) (s : Gpio.Board) (out dir : BitVec 32) : Gpio.Board :=
  { movedTo s out dir with
    drive := if s.lines.iorLow then s.drive else chip (Gpio.fields out).addr }

/-- The port with a chip that has the bytes `chip`. -/
def chipAnswer (chip : BitVec 4 → BitVec 8) :
    (s : Gpio.Board) → (op : Gpio.Op) → op.Ans × Gpio.Board
  | s, .IOSET v => ((), drivenTo chip s (s.out ||| v) s.dir)
  | s, .IOCLR v => ((), drivenTo chip s (s.out &&& ~~~v) s.dir)
  | s, .writeIODIR v => ((), drivenTo chip s s.out v)
  | s, op => pinAnswer s op

/-- The answers of a chip are answers of the pins. -/
theorem pinEnv_chipAnswer (chip : BitVec 4 → BitVec 8) (s : Gpio.Board) (op : Gpio.Op) :
    Gpio.pinEnv s op (chipAnswer chip s op).1 (chipAnswer chip s op).2 := by
  cases op with
  | IOSET v | IOCLR v | writeIODIR v => exact ⟨rfl, rfl, fun hlow => if_pos hlow, rfl⟩
  | _ => exact pinEnv_pinAnswer s _

/-- An lwIP that has the chain `p` for a request of its length. -/
def lwipWith (p : PbufChain) : (s : Gpio.Board) → (op : LwipOp) → op.Ans × Gpio.Board
  | s, .pbuf_alloc n => (if n = p.tot_len then some p else none, s)
  | s, .pbuf_header q increment => (samplePbufHeader q increment, s)
  | s, .LINK_STATS_INC _ => ((), s)

/-- A chip whose registers read 0x0180: it is up and ready to transmit; and it has
received the bytes 2 and 0. -/
def sampleChip (addr : BitVec 4) : BitVec 8 :=
  if addr = 0xc then 0x80 else if addr = 0xd then 0x01 else if addr = 0 then 0x02 else 0x00

/-- A chip, and an lwIP with one chain. -/
abbrev sampleAnswer (p : PbufChain) :=
  Program.answerSum (chipAnswer sampleChip) (lwipWith p)

/-- They are possible answers, if lwIP's are. -/
theorem boardBy_answer {ok : BusStep → Prop} {p : PbufChain}
    (halloc : ∀ n, ok ⟨.pbuf_alloc n, if n = p.tot_len then some p else none⟩)
    (hhdr : ∀ q n, ok ⟨.pbuf_header q n, samplePbufHeader q n⟩)
    (hstat : ∀ stat, ok ⟨.LINK_STATS_INC stat, ()⟩) (s : Gpio.Board) (op : Gpio.Op ⊕ LwipOp) :
    boardBy ok s op (sampleAnswer p s op).1 (sampleAnswer p s op).2 := by
  cases op with
  | inl op => exact pinEnv_chipAnswer sampleChip s op
  | inr op =>
      cases op with
      | pbuf_alloc n => exact ⟨halloc n, rfl⟩
      | pbuf_header q n => exact ⟨hhdr q n, rfl⟩
      | LINK_STATS_INC stat => exact ⟨hstat stat, rfl⟩

/-- They are so for a frame that is sent. -/
theorem boardBy_header (p : PbufChain) (s : Gpio.Board) (op : Gpio.Op ⊕ LwipOp) :
    boardBy (HeaderBy samplePbufHeader) s op (sampleAnswer p s op).1 (sampleAnswer p s op).2 :=
  boardBy_answer (fun _ => trivial) (fun _ _ => rfl) (fun _ => trivial) s op

/-- They are so for one that is received. -/
theorem boardBy_receives (p : PbufChain) (s : Gpio.Board) (op : Gpio.Op ⊕ LwipOp) :
    boardBy (ReceivesInto samplePbufHeader p) s op (sampleAnswer p s op).1
      (sampleAnswer p s op).2 := by
  exact boardBy_answer (receivesInto_alloc _ p) (fun _ _ => rfl) (fun _ => trivial) s op

theorem sampleBoard_idle : sampleBoard.Idle := by
  constructor <;> decide

/-- The chip is ready for the frame. -/
theorem sampleChip_takes : ((((lowLevelOutput 2 paddedFrame).realize pinLevel).execWith
    (sampleAnswer paddedFrame) sampleBoard).1).1 = .ERR_OK := by
  have hwait : (((waitForTx 8).realize pinLevel).execWith (sampleAnswer paddedFrame)
      (((cs8900aWrite TX_LEN_PORT 3).realize pinLevel).execWith (sampleAnswer paddedFrame)
        (((cs8900aWrite TX_CMD_PORT TX_START_ALL_BYTES).realize pinLevel).execWith
          (sampleAnswer paddedFrame) sampleBoard).2).2).1 = true := by
    decide
  have hdrop : ((dropPadding 2 paddedFrame).realize pinLevel).execWith (sampleAnswer paddedFrame)
      sampleBoard = (withoutPadding samplePbufHeader 2 paddedFrame, sampleBoard) := rfl
  have hlen : (withoutPadding samplePbufHeader 2 paddedFrame).tot_len = 3 := by
    decide
  unfold lowLevelOutput
  simp only [Program.realize_bind, Program.execWith_bind, hdrop, hlen, hwait, if_true]
  rfl

/-- The frame of three bytes behind its padding is in the chip. -/
theorem frame_on_pins_padded : ∃ p' s',
    Program.Exec (boardBy (HeaderBy samplePbufHeader)) sampleBoard
      ((lowLevelOutput 2 paddedFrame).realize pinLevel) (.ERR_OK, p') s'
    ∧ s'.Idle ∧ ∃ es, s'.log = sampleBoard.log ++ es ∧ .conflict ∉ es
      ∧ ∀ c : ChipPorts, (c.events es).Holds [1, 2, 3] := by
  have hrun := Program.exec_execWith (boardBy_header paddedFrame)
    ((lowLevelOutput 2 paddedFrame).realize pinLevel) sampleBoard
  have hok := sampleChip_takes
  rcases hres : (((lowLevelOutput 2 paddedFrame).realize pinLevel).execWith
    (sampleAnswer paddedFrame) sampleBoard).1 with ⟨r, p'⟩
  rw [hres] at hok hrun
  obtain rfl : r = .ERR_OK := hok
  have htot : paddedFrame.Consistent := rfl
  obtain ⟨hidle, es, hlog, hconflict, hchip⟩ :=
    frame_on_pins samplePbufHeader_spec htot sampleBoard_idle hrun
  exact ⟨_, _, hrun, hidle, es, hlog, hconflict, fun c => (hchip c).mpr (by decide)⟩

/-- Room for two bytes. -/
def twoByteChain : PbufChain := ⟨samplePbuf [] 0 2, [], 2⟩

/-- Both bytes of the frame are in the chain. -/
theorem received_on_pins_two : ∃ q s',
    Program.Exec (boardBy (ReceivesInto samplePbufHeader twoByteChain)) sampleBoard
      ((lowLevelInput 0 (2 ^ 15)).realize pinLevel) (some (some q)) s'
    ∧ s'.Idle ∧ ∃ es, s'.log = sampleBoard.log ++ es ∧ .conflict ∉ es
      ∧ TakenOut samplePbufHeader 0 (frameRead es) (some (some q)) := by
  have hrun := Program.exec_execWith (boardBy_receives twoByteChain)
    ((lowLevelInput 0 (2 ^ 15)).realize pinLevel) sampleBoard
  have hsome : (((((lowLevelInput 0 (2 ^ 15)).realize pinLevel).execWith
      (sampleAnswer twoByteChain) sampleBoard).1).join).isSome = true := by
    decide
  cases hfound : (((lowLevelInput 0 (2 ^ 15)).realize pinLevel).execWith
      (sampleAnswer twoByteChain) sampleBoard).1 with
  | none => exact absurd hsome (by rw [hfound]; nofun)
  | some found =>
      rw [hfound] at hsome hrun
      cases found with
      | none => exact absurd hsome nofun
      | some q =>
          have htot : twoByteChain.Consistent := rfl
          exact ⟨q, _, hrun, received_on_pins samplePbufHeader_spec htot (Nat.zero_le _) (by decide)
            (Nat.le_refl _) sampleBoard_idle hrun⟩

end PicoosLwip.Netif.Cs8900a
