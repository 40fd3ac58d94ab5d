/-
  PicoosLwip.Sockets.FileTable — sockets.c and the `closesocket` macro of
  picoos-lwip.h, over the file table of picoos-micro and lwIP's sockets.

  A socket is a slot of the file table whose `fsPrivFd` is an lwIP descriptor.
  The table and lwIP reuse slots and descriptors on their own, so what they
  hand out is part of a call: the slot that `uosFileAlloc` finds, the
  descriptor that `lwip_socket` or `lwip_accept` returns, whether `lwip_close`
  succeeds.  A freed slot keeps its last contents.
-/
import PicoosLwip.Framework.Run

namespace PicoosLwip.Sockets

open PicoosLwip.Framework

/-! ## §1. The two tables. -/

/-- `file->fs`: the socket file system or another one. -/
inductive FileSystem where
  | sockFS
  | other
  deriving DecidableEq

/-- `file->cf`: the operations of a file. -/
inductive FileConf where
  | sockConf
  | other
  deriving DecidableEq

/-- The fields of `UosFile` that the socket layer uses. -/
structure UosFile where
  fs : FileSystem
  cf : FileConf
  fsPrivFd : Int
  deriving DecidableEq

/-- An entry of the file table. -/
structure Slot where
  allocated : Bool
  file : UosFile
  deriving DecidableEq

/-- The file table, and the descriptors that are open in lwIP. -/
structure World where
  slots : List Slot
  opened : List Int
  deriving DecidableEq

/-! ## §2. picoos-micro and lwIP. -/

/-- `uosFileAlloc` hands out slot `i`. -/
def uosFileAlloc (i : Nat) (w : World) : World :=
  { w with slots := w.slots.modify i fun sl => { sl with allocated := true } }

/-- Give a slot back. -/
def uosFileFree (i : Nat) (w : World) : World :=
  { w with slots := w.slots.modify i fun sl => { sl with allocated := false } }

/-- The file of a slot; `none` is `NULL`. -/
def uosSlot2File (w : World) (s : Int) : Option UosFile :=
  if s < 0 then none
  else ((w.slots[s.toNat]?).filter fun sl => sl.allocated).map fun sl => sl.file

/-- A new descriptor is open in lwIP; −1 is none. -/
def lwipOpen (sock : Int) (w : World) : World :=
  if sock = -1 then w else { w with opened := sock :: w.opened }

/-- `lwip_close`: it fails on a descriptor that is not open, and may fail on one
that is; a failed one leaves it open. -/
def lwip_close (fd : Int) (ok : Bool) (w : World) : Int × World :=
  if fd ∈ w.opened ∧ ok then (0, { w with opened := w.opened.filter fun fd' => fd' ≠ fd })
  else (-1, w)

/-! ## §3. sockets.c. -/

/-- The lwIP descriptor behind `s`; no result when `P_ASSERT` fails. -/
def netLwIP_FD (w : World) (s : Int) : Option Int :=
  match uosSlot2File w s with
  | none => some (-1)
  | some file => if file.fs = .sockFS then some file.fsPrivFd else none

/-- The tail of `socket` and `accept`, once lwIP has returned `sock`. -/
def finishOpen (i : Nat) (sock : Int) (w : World) : Int × World :=
  if sock = -1 then (-1, uosFileFree i w)
  else (i, { w with
    slots := w.slots.modify i fun sl => { sl with file := ⟨.sockFS, .sockConf, sock⟩ } })

/-- `slot` is what `uosFileAlloc` returns, `sock` what `lwip_socket` does. -/
def socket (slot : Option Nat) (sock : Int) (w : World) : Int × World :=
  match slot with
  | none => (-1, w)
  | some i =>
      let w := uosFileAlloc i w
      let w := lwipOpen sock w
      finishOpen i sock w

/-- As `socket`, with `lwip_accept` on the descriptor behind `s`. -/
def accept (s : Int) (slot : Option Nat) (sock : Int) (w : World) : Option (Int × World) :=
  match slot with
  | none => some (-1, w)
  | some i =>
      let w := uosFileAlloc i w
      -- the slot is taken before `s` is looked up
      match netLwIP_FD w s with
      | none => none
      | some _ =>
          let w := lwipOpen sock w
          some (finishOpen i sock w)

/-- `sockClose` of the file in slot `i`; the result of `lwip_close` is dropped. -/
def sockClose (i : Nat) (ok : Bool) (w : World) : Option (Int × World) :=
  match w.slots[i]? with
  | none => none
  | some sl =>
      if sl.file.fs = .sockFS then
        -- the result of lwip_close is not looked at
        let sock := sl.file.fsPrivFd
        let w := (lwip_close sock ok w).2
        some (0, uosFileFree i w)
      else none

/-- `#define closesocket(s) lwip_close(netLwIP_FD(s))` -/
def closesocket (s : Int) (ok : Bool) (w : World) : Option (Int × World) :=
  (netLwIP_FD w s).map fun fd => lwip_close fd ok w

/-! ## §4. Calls. -/

/-- A call, with what the file table and lwIP return in it. -/
inductive Call where
  | socket (slot : Option Nat) (sock : Int)
  | accept (s : Int) (slot : Option Nat) (sock : Int)
  /-- A close of slot `i`, which is `sockClose` for a socket's file. -/
  | close (i : Nat) (ok : Bool)
  | closesocket (s : Int) (ok : Bool)
  deriving DecidableEq

/-- The call's result and what it leaves. -/
def Call.run : Call → World → Option (Int × World)
  | .socket slot sock, w => some (Sockets.socket slot sock w)
  | .accept s slot sock, w => Sockets.accept s slot sock w
  | .close i ok, w => sockClose i ok w
  | .closesocket s ok, w => Sockets.closesocket s ok w

/-- Slot `i` is free. -/
def World.FreeSlot (w : World) (i : Nat) : Prop :=
  ∃ sl, w.slots[i]? = some sl ∧ sl.allocated = false

/-- Slot `i` is allocated to a socket. -/
def World.SocketSlot (w : World) (i : Nat) : Prop :=
  ∃ sl, w.slots[i]? = some sl ∧ sl.allocated = true ∧ sl.file.cf = .sockConf

/-- What the file table and lwIP can return: a free slot or `NULL`, a descriptor
that is not open or −1. -/
def Call.Allowed (w : World) : Call → Prop
  | .socket slot sock => (∀ i, slot = some i → w.FreeSlot i) ∧ (sock ≠ -1 → sock ∉ w.opened)
  | .accept _ slot sock => (∀ i, slot = some i → w.FreeSlot i) ∧ (sock ≠ -1 → sock ∉ w.opened)
  | .close i _ => w.SocketSlot i
  | .closesocket _ _ => True

/-- A call that returns `l.2`. -/
def CallStep (w : World) (l : Call × Int) (w' : World) : Prop :=
  l.1.Allowed w ∧ l.1.run w = some (l.2, w')

end PicoosLwip.Sockets
