/-
  PicoosLwip.Netif.Tapif — the driver of tapif.c.

  The driver is a `Program` over what it calls: `read` and `write` on the tap
  device, `memcpy` between its stack buffer and a pbuf, the statistics, and
  lwIP's `pbuf_alloc` and `pbuf_header`.  Device and lwIP answer.
  `ETH_PAD_SIZE` is the parameter `pad`.

  `ethBuf` is an array on the stack: behind what `read` delivers it holds what
  was there before, and behind its end lies the rest of the stack.
-/
import PicoosLwip.Netif.Cs8900a

namespace PicoosLwip.Netif.Tapif

open PicoosLwip.Framework
open Cs8900a (LinkStat Err)

/-! ## §1. The device. -/

/-- `sizeof(ethBuf)`. -/
def ethBufSize : Nat := 1514

/-- There is no frame now. -/
def EAGAIN : Nat := 11

/-- What `read(tap, ethBuf, sizeof(ethBuf))` can do: −1, or a frame. -/
inductive ReadResult where
  | failed (errno : Nat)
  | got (bytes : List UInt8) (fits : bytes.length ≤ ethBufSize)

/-- The value returned. -/
def ReadResult.len : ReadResult → Int
  | .failed _ => -1
  | .got bytes _ => bytes.length

/-- The bytes delivered. -/
def ReadResult.bytes : ReadResult → List UInt8
  | .failed _ => []
  | .got bytes _ => bytes

/-- `len == -1 && errno == EAGAIN` -/
def ReadResult.wouldBlock : ReadResult → Bool
  | .failed errno => errno == EAGAIN
  | .got _ _ => false

/-- What `ethBuf` holds afterwards. -/
def ReadResult.ethBuf (res : ReadResult) (stack : Nat → UInt8) (i : Nat) : UInt8 :=
  res.bytes.getD i (stack i)

/-! ## §2. What the driver calls. -/

/-- The device, the copying, and what is called of lwIP. -/
inductive Op where
  | read
  /-- `write` of `n` bytes of `ethBuf`. -/
  | write (ethBuf : Nat → UInt8) (n : UInt16)
  /-- `n` bytes are copied from `ethBuf + ofs` into a pbuf. -/
  | memcpyFrom (ofs n : Nat)
  /-- `n` bytes are copied from a pbuf to `ethBuf + ofs`. -/
  | memcpyTo (ofs n : Nat)
  | pbuf_alloc (len : UInt16)
  | pbuf_header (p : PbufChain) (increment : Int)
  | LINK_STATS_INC (stat : LinkStat)

/-- What comes back. -/
def Op.Ans : Op → Type
  | .read => ReadResult
  | .write _ _ => Int
  | .memcpyFrom _ _ => Unit
  | .memcpyTo _ _ => Unit
  | .pbuf_alloc _ => Option PbufChain
  | .pbuf_header _ _ => PbufChain
  | .LINK_STATS_INC _ => Unit

/-- A function of the driver. -/
abbrev Driver (α : Type) : Type := Program Op Op.Ans α

/-- `read(tapIf->tap, ethBuf, sizeof(ethBuf))` -/
def read : Driver ReadResult := Program.perform Op.read

/-- `write(tapIf->tap, ethBuf, n)` -/
def write (ethBuf : Nat → UInt8) (n : UInt16) : Driver Int := Program.perform (Op.write ethBuf n)

/-- `memcpy` out of `ethBuf`. -/
def memcpyFrom (ofs n : Nat) : Driver Unit := Program.perform (Op.memcpyFrom ofs n)

/-- `memcpy` into `ethBuf`. -/
def memcpyTo (ofs n : Nat) : Driver Unit := Program.perform (Op.memcpyTo ofs n)

/-- `pbuf_alloc(PBUF_RAW, len, PBUF_POOL)` -/
def pbuf_alloc (len : UInt16) : Driver (Option PbufChain) := Program.perform (Op.pbuf_alloc len)

/-- Step over the padding, or back. -/
def pbuf_header (p : PbufChain) (increment : Int) : Driver PbufChain :=
  Program.perform (Op.pbuf_header p increment)

/-- Count. -/
def LINK_STATS_INC (stat : LinkStat) : Driver Unit := Program.perform (Op.LINK_STATS_INC stat)

/-! ## §3. The driver's functions. -/

/-- `#if ETH_PAD_SIZE pbuf_header(p, -ETH_PAD_SIZE);` -/
def dropPadding (pad : Nat) (p : PbufChain) : Driver PbufChain :=
  if pad = 0 then pure p else pbuf_header p (-pad)

/-- `#if ETH_PAD_SIZE pbuf_header(p, ETH_PAD_SIZE);` -/
def reclaimPadding (pad : Nat) (p : PbufChain) : Driver PbufChain :=
  if pad = 0 then pure p else pbuf_header p pad

/-- The copy loop of `lowLevelOutput`; the result is `ethBuf`. -/
def gather : (bufPtr : Nat) → (ethBuf : Nat → UInt8) → List Pbuf → Driver (Nat → UInt8)
  | _, ethBuf, [] => pure ethBuf
  | bufPtr, ethBuf, q :: qs => do
      memcpyTo bufPtr q.len.toNat
      gather (bufPtr + q.len.toNat)
        (fun i => if bufPtr ≤ i ∧ i < bufPtr + q.len.toNat then q.byteAt (i - bufPtr) else ethBuf i)
        qs

/-- The result, and the chain as it is left. -/
def lowLevelOutput (pad : Nat) (stack : Nat → UInt8) (p : PbufChain) :
    Driver (Err × PbufChain) := do
  let p ← dropPadding pad p
  let ethBuf ← gather 0 stack p.segments
  if (← write ethBuf p.tot_len) = -1 then
    -- only the other branch reclaims the padding
    pure (.ERR_IF, p)
  else
    let p ← reclaimPadding pad p
    LINK_STATS_INC .xmit
    pure (.ERR_OK, p)

/-- The copy loop of `lowLevelInput`. -/
def scatter (ethBuf : Nat → UInt8) : (bufPtr : Nat) → List Pbuf → Driver (List Pbuf)
  | _, [] => pure []
  | bufPtr, q :: qs => do
      memcpyFrom bufPtr q.len.toNat
      let qs ← scatter ethBuf (bufPtr + q.len.toNat) qs
      pure (q.fill (fun i => ethBuf (bufPtr + i)) :: qs)

/-- Copy a frame of `ethBuf` into the chain that was allocated for it. -/
def receiveInto (pad : Nat) (ethBuf : Nat → UInt8) (p : PbufChain) : Driver PbufChain := do
  let p ← dropPadding pad p
  memcpyFrom 0 p.first.len.toNat
  let next ← scatter ethBuf p.first.len.toNat p.next
  let p ← reclaimPadding pad ⟨p.first.fill ethBuf, next, p.tot_len⟩
  LINK_STATS_INC .recv
  pure p

/-- The pbuf returned, `NULL` or a chain. -/
def lowLevelInput (pad : Nat) (stack : Nat → UInt8) : Driver (Option PbufChain) := do
  let res ← read
  if res.wouldBlock then
    pure none
  else
    -- the length is narrowed to 16 bits
    match ← pbuf_alloc (UInt16.ofInt (res.len + pad)) with
    | some p => do
        let p ← receiveInto pad (res.ethBuf stack) p
        pure (some p)
    | none => do
        LINK_STATS_INC .memerr
        LINK_STATS_INC .drop
        pure none

end PicoosLwip.Netif.Tapif
