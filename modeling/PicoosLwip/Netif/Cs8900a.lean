/-
  PicoosLwip.Netif.Cs8900a — the driver of cs8900a_lpc_e2129.c.

  The driver is a `Program` over what it calls: its bus routines, each one
  operation here, the statistics, and lwIP's `pbuf_alloc` and `pbuf_header`.
  Chip and lwIP answer.  `ETH_PAD_SIZE` is the parameter `pad`.

  `lowLevelInput` copies with a 16-bit index that steps by two; the copy loops
  run for at most `fuel` rounds a segment, and give no result when that is too
  few.
-/
import PicoosLwip.Framework.Program
import PicoosLwip.Netif.Pbuf

namespace PicoosLwip.Netif.Cs8900a

open PicoosLwip.Framework

/-! ## §1. Ports and registers. -/

/-- Received frames are read here. -/
def RX_FRAME_PORT : Nat := 0x0
/-- Frames to send are written here. -/
def TX_FRAME_PORT : Nat := 0x0
/-- The command to transmit. -/
def TX_CMD_PORT : Nat := 0x4
/-- The length of the frame to transmit. -/
def TX_LEN_PORT : Nat := 0x6
/-- The address latch: the number of a register. -/
def ADD_PORT : Nat := 0xA
/-- The register that the latch selects. -/
def DATA_PORT : Nat := 0xC

/-- Receive configuration. -/
def PP_RxCFG : UInt16 := 0x0102
/-- The event of the first received frame. -/
def PP_RxEvent : UInt16 := 0x0124
/-- Status of the bus. -/
def PP_BusST : UInt16 := 0x0138

/-- Of `PP_RxCFG`: throw the first received frame away. -/
def SKIP_1 : UInt16 := 0x0040
/-- Of `PP_BusST`: there is buffer space for the frame. -/
def READY_FOR_TX_NOW : UInt16 := 0x0100
/-- Start to transmit when the whole frame is in the chip. -/
def TX_START_ALL_BYTES : UInt16 := 0x00C0

/-! ## §2. What the driver calls. -/

/-- A counter of `LINK_STATS_INC`. -/
inductive LinkStat where
  | xmit
  | recv
  | memerr
  | drop
  deriving DecidableEq

/-- The bus routines, and what is called of lwIP. -/
inductive Op where
  | cs8900aWrite (addr : Nat) (data : UInt16)
  | cs8900aRead (addr : Nat)
  | cs8900aReadAddrHighFirst (addr : Nat)
  /-- Data pins to output, and `port` on the address pins. -/
  | busOut (port : Nat)
  /-- Data pins to input, and `port` on the address pins. -/
  | busIn (port : Nat)
  | cs8900aWriteTxBuf (b0 b1 : UInt8)
  /-- Two bytes for index `u` of the `k`-th pbuf of the chain. -/
  | cs8900aReadRxBuf (k : Nat) (u : UInt16)
  | pbuf_alloc (len : UInt16)
  | pbuf_header (p : PbufChain) (increment : Int)
  | LINK_STATS_INC (stat : LinkStat)

/-- What comes back; `pbuf_header` changes the chain in place. -/
def Op.Ans : Op → Type
  | .cs8900aWrite _ _ => Unit
  | .cs8900aRead _ => UInt16
  | .cs8900aReadAddrHighFirst _ => UInt16
  | .busOut _ => Unit
  | .busIn _ => Unit
  | .cs8900aWriteTxBuf _ _ => Unit
  | .cs8900aReadRxBuf _ _ => UInt8 × UInt8
  | .pbuf_alloc _ => Option PbufChain
  | .pbuf_header _ _ => PbufChain
  | .LINK_STATS_INC _ => Unit

/-- A function of the driver. -/
abbrev Driver (α : Type) : Type := Program Op Op.Ans α

/-- Write a word to a port. -/
def cs8900aWrite (addr : Nat) (data : UInt16) : Driver Unit :=
  Program.perform (Op.cs8900aWrite addr data)

/-- Read a word from a port. -/
def cs8900aRead (addr : Nat) : Driver UInt16 := Program.perform (Op.cs8900aRead addr)

/-- The same, the high byte first. -/
def cs8900aReadAddrHighFirst (addr : Nat) : Driver UInt16 :=
  Program.perform (Op.cs8900aReadAddrHighFirst addr)

/-- Turn the bus to a port that is written. -/
def busOut (port : Nat) : Driver Unit := Program.perform (Op.busOut port)

/-- Turn the bus to a port that is read. -/
def busIn (port : Nat) : Driver Unit := Program.perform (Op.busIn port)

/-- Two bytes of a frame to send. -/
def cs8900aWriteTxBuf (b0 b1 : UInt8) : Driver Unit :=
  Program.perform (Op.cs8900aWriteTxBuf b0 b1)

/-- Two bytes of a received frame. -/
def cs8900aReadRxBuf (k : Nat) (u : UInt16) : Driver (UInt8 × UInt8) :=
  Program.perform (Op.cs8900aReadRxBuf k u)

/-- `pbuf_alloc(PBUF_RAW, len, PBUF_POOL)` -/
def pbuf_alloc (len : UInt16) : Driver (Option PbufChain) := Program.perform (Op.pbuf_alloc len)

/-- Step over the padding, or back. -/
def pbuf_header (p : PbufChain) (increment : Int) : Driver PbufChain :=
  Program.perform (Op.pbuf_header p increment)

/-- Count. -/
def LINK_STATS_INC (stat : LinkStat) : Driver Unit := Program.perform (Op.LINK_STATS_INC stat)

/-! ## §3. The driver's functions. -/

/-- Skip the received frame that is first in the chip. -/
def cs8900aSkipFrame : Driver Unit := do
  cs8900aWrite ADD_PORT PP_RxCFG
  let cfg ← cs8900aRead DATA_PORT
  cs8900aWrite DATA_PORT (cfg ||| SKIP_1)

/-- `#if ETH_PAD_SIZE pbuf_header(p, -ETH_PAD_SIZE);` -/
def dropPadding (pad : Nat) (p : PbufChain) : Driver PbufChain :=
  if pad = 0 then pure p else pbuf_header p (-pad)

/-- `#if ETH_PAD_SIZE pbuf_header(p, ETH_PAD_SIZE);` -/
def reclaimPadding (pad : Nat) (p : PbufChain) : Driver PbufChain :=
  if pad = 0 then pure p else pbuf_header p pad

/-- What the functions return. -/
inductive Err where
  | ERR_OK
  | ERR_IF
  deriving DecidableEq

/-- Whether the chip has buffer space for the frame. -/
def readyForTx : Driver Bool := do
  cs8900aWrite ADD_PORT PP_BusST
  let status ← cs8900aRead DATA_PORT
  pure (status &&& READY_FOR_TX_NOW != 0)

/-- The retry loop of `lowLevelOutput`, with `u` retries left; `false` is its
`return ERR_IF`. -/
def waitForTx : (u : Nat) → Driver Bool
  | 0 => readyForTx
  | u + 1 => do
      if ← readyForTx then
        pure true
      else
        -- no space available: skip a received frame and try again
        cs8900aSkipFrame
        waitForTx u

/-- `for (; u < q->len; u += 2)`, the bytes of one pbuf. -/
def sendPayload (q : Pbuf) (u : Nat) : Driver Unit :=
  if u < q.len.toNat then do
    cs8900aWriteTxBuf (q.byteAt u) (q.byteAt (u + 1))
    sendPayload q (u + 2)
  else
    pure ()
termination_by q.len.toNat - u

/-- `for (q = p; q != NULL; q = q->next)` of `lowLevelOutput`. -/
def sendSegments : List Pbuf → Driver Unit
  | [] => pure ()
  | q :: qs => do
      busOut TX_FRAME_PORT
      sendPayload q 0
      sendSegments qs

/-- The result, and the chain as it is left. -/
def lowLevelOutput (pad : Nat) (p : PbufChain) : Driver (Err × PbufChain) := do
  let p ← dropPadding pad p
  cs8900aWrite TX_CMD_PORT TX_START_ALL_BYTES
  cs8900aWrite TX_LEN_PORT p.tot_len
  if ← waitForTx 8 then
    sendSegments p.segments
    -- only this branch reclaims the padding
    let p ← reclaimPadding pad p
    LINK_STATS_INC .xmit
    pure (.ERR_OK, p)
  else
    pure (.ERR_IF, p)

/-- `while (u < q->len)`, into the `k`-th pbuf; `u += 2` wraps at 16 bits. -/
def readPayload : (fuel k : Nat) → Pbuf → (u : UInt16) → Driver (Option Pbuf)
  | 0, _, _, _ => pure none
  | fuel + 1, k, q, u =>
      if u < q.len then do
        let b ← cs8900aReadRxBuf k u
        readPayload fuel k ((q.setByte u.toNat b.1).setByte (u.toNat + 1) b.2) (u + 2)
      else
        pure (some q)

/-- `for (q = p; q != NULL; q = q->next)` of `lowLevelInput`, from the `k`-th
pbuf on. -/
def readSegments (fuel : Nat) : (k : Nat) → List Pbuf → Driver (Option (List Pbuf))
  | _, [] => pure (some [])
  | k, q :: qs => do
      match ← readPayload fuel k q 0 with
      | none => pure none
      | some q =>
          match ← readSegments fuel (k + 1) qs with
          | none => pure none
          | some qs => pure (some (q :: qs))

/-- Copy a frame of the chip into the chain that was allocated for it. -/
def receiveInto (pad fuel : Nat) (p : PbufChain) : Driver (Option PbufChain) := do
  let p ← dropPadding pad p
  busIn RX_FRAME_PORT
  -- the bus is turned round once, in front of the loop over the pbufs
  match ← readPayload fuel 0 p.first 0 with
  | none => pure none
  | some first =>
      match ← readSegments fuel 1 p.next with
      | none => pure none
      | some next =>
          let p ← reclaimPadding pad ⟨first, next, p.tot_len⟩
          LINK_STATS_INC .recv
          pure (some p)

/-- The pbuf returned, `NULL` or a chain; no result while a copy loop runs. -/
def lowLevelInput (pad fuel : Nat) : Driver (Option (Option PbufChain)) := do
  -- is there a valid frame?
  cs8900aWrite ADD_PORT PP_RxEvent
  let event ← cs8900aRead DATA_PORT
  if event &&& 0xd00 = 0 then
    pure (some none)
  else
    -- the receiver status is discarded
    let _ ← cs8900aReadAddrHighFirst RX_FRAME_PORT
    let len ← cs8900aReadAddrHighFirst RX_FRAME_PORT
    match ← pbuf_alloc (len + UInt16.ofNat pad) with
    | some p => do
        match ← receiveInto pad fuel p with
        | none => pure none
        | some p => pure (some (some p))
    | none => do
        cs8900aSkipFrame
        LINK_STATS_INC .memerr
        LINK_STATS_INC .drop
        pure (some none)

end PicoosLwip.Netif.Cs8900a
