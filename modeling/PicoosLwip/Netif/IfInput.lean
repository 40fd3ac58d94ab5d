/-
  PicoosLwip.Netif.IfInput — from the driver to lwIP.

  `tapIfInput` and `cs8900aIfInput` are the same text around two drivers: fetch a
  frame, look at its type, and give it to `netif->input` or free it.  The result
  tells the receive thread whether to come back at once.

  The constants are lwIP's; `pppoe` is `PPPOE_SUPPORT`.
-/
import PicoosLwip.Framework.Environment
import PicoosLwip.Netif.Tapif

namespace PicoosLwip.Netif

open PicoosLwip.Framework

/-! ## §1. What is called besides the driver. -/

/-- What a driver calls of the stack. -/
inductive StackOp where
  /-- `netif->input(p, netif)` -/
  | input (p : PbufChain)
  | pbuf_free (p : PbufChain)

/-- What comes back; `netif->input` returns an `err_t`. -/
def StackOp.Ans : StackOp → Type
  | .input _ => Int
  | .pbuf_free _ => Unit

/-- The stack has taken the pbuf. -/
def ERR_OK : Int := 0

/-- Programs over a driver's operations and these. -/
abbrev IfProgram (Op : Type) (Ans : Op → Type) (α : Type) : Type :=
  Program (Op ⊕ StackOp) (Sum.elim Ans StackOp.Ans) α

section

variable {Op : Type} {Ans : Op → Type}

/-- Pass the pbuf on. -/
def input (p : PbufChain) : IfProgram Op Ans Int := Program.performInr (StackOp.input p)

/-- Give it back. -/
def pbuf_free (p : PbufChain) : IfProgram Op Ans Unit := Program.performInr (StackOp.pbuf_free p)

end

/-! ## §2. The type of a frame. -/

/-- IPv4. -/
def ETHTYPE_IP : UInt16 := 0x0800
/-- ARP. -/
def ETHTYPE_ARP : UInt16 := 0x0806
/-- IPv6. -/
def ETHTYPE_IPV6 : UInt16 := 0x86DD
/-- PPPoE, discovery. -/
def ETHTYPE_PPPOEDISC : UInt16 := 0x8863
/-- PPPoE, session. -/
def ETHTYPE_PPPOE : UInt16 := 0x8864

/-- `htons(ethhdr->type)`; an Ethernet header begins with the padding. -/
def ethType (pad : Nat) (p : PbufChain) : UInt16 :=
  (p.first.byteAt (pad + 12)).toUInt16 <<< 8 ||| (p.first.byteAt (pad + 13)).toUInt16

/-- The cases of the `switch`, `default` apart. -/
def isHandled (pppoe : Bool) (type : UInt16) : Bool :=
  type == ETHTYPE_IP || type == ETHTYPE_IPV6 || type == ETHTYPE_ARP
    || pppoe && (type == ETHTYPE_PPPOEDISC || type == ETHTYPE_PPPOE)

/-! ## §3. The two functions. -/

/-- The `switch` and the `return true` behind it. -/
def passOn {Op : Type} {Ans : Op → Type} (pppoe : Bool) (pad : Nat) (p : PbufChain) :
    IfProgram Op Ans (Option Bool) := do
  if isHandled pppoe (ethType pad p) then
    -- the full packet goes to tcpip_thread
    let err ← input p
    if err ≠ ERR_OK then
      pbuf_free p
      pure (some true)
    else
      pure (some true)
  else
    -- default
    pbuf_free p
    pure (some true)

/-- Fetch a frame and pass it on; no result where `lowLevelInput` has none. -/
def ifInput {Op : Type} {Ans : Op → Type}
    (lowLevelInput : Program Op Ans (Option (Option PbufChain))) (pppoe : Bool) (pad : Nat) :
    IfProgram Op Ans (Option Bool) := do
  match ← lowLevelInput.inl with
  | none => pure none
  | some none => pure (some false)
  | some (some p) => passOn pppoe pad p

/-- A round of `tapThread`. -/
def tapIfInput (pppoe : Bool) (pad : Nat) (stack : Nat → UInt8) :
    IfProgram Tapif.Op Tapif.Op.Ans (Option Bool) :=
  ifInput (Tapif.lowLevelInput pad stack >>= fun p => pure (some p)) pppoe pad

/-- A round of `cs8900aThread`; the copying may run out of fuel. -/
def cs8900aIfInput (pppoe : Bool) (pad fuel : Nat) :
    IfProgram Cs8900a.Op Cs8900a.Op.Ans (Option Bool) :=
  ifInput (Cs8900a.lowLevelInput pad fuel) pppoe pad

end PicoosLwip.Netif
