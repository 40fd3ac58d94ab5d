/-
  PicoosLwip.Sockets.Threads — sockets.c and picoos-lwip.h, called by several threads.

  Nothing in sockets.c locks: `socket` and `accept` fill in the file of a slot that is
  allocated already, and may wait in lwIP before that; `sockClose` closes the descriptor
  while the slot still has it.  What other threads do meanwhile goes well, whatever the
  order, as long as each thread calls with sockets that are its own: those it has opened,
  or was handed by another thread, and has not closed.

  `closesocket` takes the socket from its thread as `sockClose` does, but leaves the slot
  allocated: the file table never hands it out again, and nobody may call with it.
  `getsockopt` is left out: written with a blank before its parameters, it is no macro
  with parameters, and a call of it does not compile.

  Main results:
    * `exec_callStep`   — a call without interruption is one of `FileTable`;
    * `sockets_apart`   — no two sockets of any threads share a descriptor, and each has one
                          that is open in lwIP;
    * `descriptor_kept` — it has the same one until it is closed, and each call of lwIP is
                          the one that the thread's call is for, made on it.
-/
import Mathlib.Data.Set.Insert
import PicoosLwip.Framework.Owned
import PicoosLwip.Sockets.Steps

namespace PicoosLwip.Sockets.Threads

open PicoosLwip.Framework

/-! ## §1. Operations. -/

/-- The functions of lwIP on a descriptor that is behind a slot. -/
inductive LwipFunction where
  | lwip_bind
  | lwip_shutdown
  | lwip_getpeername
  | lwip_getsockname
  | lwip_setsockopt
  | lwip_connect
  | lwip_listen
  | lwip_recv
  | lwip_recvfrom
  | lwip_send
  | lwip_sendmsg
  | lwip_sendto
  | lwip_writev
  | lwip_read
  | lwip_write
  deriving DecidableEq

/-- What the functions of sockets.c do, one at a time; a `UosFile *` is the number of its
slot. -/
inductive FileOp where
  | uosFileAlloc
  | uosFileFree (file : Nat)
  | uosSlot2File (s : Int)
  | fs (file : Nat)
  | fsPrivFd (file : Nat)
  | setFs (file : Nat) (fs : FileSystem)
  | setCf (file : Nat) (cf : FileConf)
  | setFsPrivFd (file : Nat) (fd : Int)
  | P_ASSERT (holds : Bool)
  | lwip_socket (domain type protocol : Int)
  | lwip_accept (fd : Int) (addr addrlen : Int)
  | lwip_close (fd : Int)
  /-- The other arguments are passed on as they are. -/
  | lwip (function : LwipFunction) (fd : Int) (args : List Int)

/-- The operation is a call of lwIP. -/
def FileOp.OfLwip : FileOp → Prop
  | .lwip_socket _ _ _ | .lwip_accept _ _ _ | .lwip_close _ | .lwip _ _ _ => True
  | _ => False

/-- What an operation returns. -/
def FileOp.Ans : FileOp → Type
  | .uosFileAlloc => Option Nat
  | .uosSlot2File _ => Option Nat
  | .fs _ => FileSystem
  | .fsPrivFd _ => Int
  | .lwip_socket _ _ _ => Int
  | .lwip_accept _ _ _ => Int
  | .lwip_close _ => Int
  | .lwip _ _ _ => Int
  | _ => Unit

/-- A function of the socket layer. -/
abbrev Sock (α : Type) : Type := Program FileOp FileOp.Ans α

/-- A free slot, if there is one. -/
def uosFileAlloc : Sock (Option Nat) := Program.perform FileOp.uosFileAlloc

/-- Give a slot back. -/
def uosFileFree (file : Nat) : Sock Unit := Program.perform (FileOp.uosFileFree file)

/-- The file in a slot, if there is one. -/
def uosSlot2File (s : Int) : Sock (Option Nat) := Program.perform (FileOp.uosSlot2File s)

/-- `file->fs` -/
def fs (file : Nat) : Sock FileSystem := Program.perform (FileOp.fs file)

/-- `file->fsPriv.fd` -/
def fsPrivFd (file : Nat) : Sock Int := Program.perform (FileOp.fsPrivFd file)

/-- `file->fs = fs` -/
def setFs (file : Nat) (fs : FileSystem) : Sock Unit := Program.perform (FileOp.setFs file fs)

/-- `file->cf = cf` -/
def setCf (file : Nat) (cf : FileConf) : Sock Unit := Program.perform (FileOp.setCf file cf)

/-- `file->fsPriv.fd = fd` -/
def setFsPrivFd (file : Nat) (fd : Int) : Sock Unit :=
  Program.perform (FileOp.setFsPrivFd file fd)

/-- The assertion, and whether it holds. -/
def P_ASSERT (holds : Bool) : Sock Unit := Program.perform (FileOp.P_ASSERT holds)

/-- A new descriptor, or -1. -/
def lwip_socket (domain type protocol : Int) : Sock Int :=
  Program.perform (FileOp.lwip_socket domain type protocol)

/-- The descriptor of a new connection, or -1. -/
def lwip_accept (fd addr addrlen : Int) : Sock Int :=
  Program.perform (FileOp.lwip_accept fd addr addrlen)

/-- Close a descriptor. -/
def lwip_close (fd : Int) : Sock Int := Program.perform (FileOp.lwip_close fd)

/-- Any other function of lwIP on a descriptor. -/
def lwip (function : LwipFunction) (fd : Int) (args : List Int) : Sock Int :=
  Program.perform (FileOp.lwip function fd args)

/-! ## §2. sockets.c. -/

/-- The descriptor of a socket. -/
def netLwIP_FD (s : Int) : Sock Int := do
  match ← uosSlot2File s with
  | none => pure (-1)
  | some file => do
      P_ASSERT ((← fs file) = .sockFS)
      fsPrivFd file

/-- The tail of `socket` and `accept`, once lwIP has returned `sock`. -/
def finishOpen (file : Nat) (sock : Int) : Sock Int := do
  if sock = -1 then
    uosFileFree file
    pure (-1)
  else
    -- three stores: another thread may run between them
    setFs file .sockFS
    setCf file .sockConf
    setFsPrivFd file sock
    pure file

/-- Open a socket. -/
def socket (domain type protocol : Int) : Sock Int := do
  match ← uosFileAlloc with
  | none => pure (-1)
  | some file => finishOpen file (← lwip_socket domain type protocol)

/-- Open a socket for a connection. -/
def accept (s addr addrlen : Int) : Sock Int := do
  match ← uosFileAlloc with
  | none => pure (-1)
  -- lwip_accept waits for a connection with the slot already taken
  | some file => finishOpen file (← lwip_accept (← netLwIP_FD s) addr addrlen)

/-- Close lwIP's descriptor, whatever comes of it, and give the slot back. -/
def sockClose (file : Nat) : Sock Int := do
  P_ASSERT ((← fs file) = .sockFS)
  let sock ← fsPrivFd file
  let _ ← lwip_close sock
  uosFileFree file
  pure 0

/-- `sockRead` and `sockWrite`, by the function of lwIP that they call. -/
def sockTransfer (function : LwipFunction) (file : Nat) (buf len : Int) : Sock Int := do
  P_ASSERT ((← fs file) = .sockFS)
  let sock ← fsPrivFd file
  lwip function sock [buf, len]

/-- `read` on a socket. -/
def sockRead (file : Nat) (buf len : Int) : Sock Int := sockTransfer .lwip_read file buf len

/-- `write` on a socket. -/
def sockWrite (file : Nat) (buf len : Int) : Sock Int := sockTransfer .lwip_write file buf len

/-! ## §3. The macros of picoos-lwip.h. -/

/-- A macro, by the function of lwIP that it calls. -/
def onDescriptor (function : LwipFunction) (s : Int) (args : List Int) : Sock Int := do
  lwip function (← netLwIP_FD s) args

/-- `lwip_bind(netLwIP_FD(s), ...)`, and so on below. -/
def bind (s name namelen : Int) : Sock Int := onDescriptor .lwip_bind s [name, namelen]

/-- `lwip_shutdown` -/
def shutdown (s how : Int) : Sock Int := onDescriptor .lwip_shutdown s [how]

/-- `lwip_getpeername` -/
def getpeername (s name namelen : Int) : Sock Int :=
  onDescriptor .lwip_getpeername s [name, namelen]

/-- `lwip_getsockname` -/
def getsockname (s name namelen : Int) : Sock Int :=
  onDescriptor .lwip_getsockname s [name, namelen]

/-- `lwip_setsockopt` -/
def setsockopt (s level optname optval optlen : Int) : Sock Int :=
  onDescriptor .lwip_setsockopt s [level, optname, optval, optlen]

/-- `lwip_connect` -/
def connect (s name namelen : Int) : Sock Int := onDescriptor .lwip_connect s [name, namelen]

/-- `lwip_listen` -/
def listen (s backlog : Int) : Sock Int := onDescriptor .lwip_listen s [backlog]

/-- `lwip_recv` -/
def recv (s mem len flags : Int) : Sock Int := onDescriptor .lwip_recv s [mem, len, flags]

/-- `lwip_recvfrom` -/
def recvfrom (s mem len flags from_ fromlen : Int) : Sock Int :=
  onDescriptor .lwip_recvfrom s [mem, len, flags, from_, fromlen]

/-- `lwip_send` -/
def send (s dataptr size flags : Int) : Sock Int := onDescriptor .lwip_send s [dataptr, size, flags]

/-- `lwip_sendmsg` -/
def sendmsg (s message flags : Int) : Sock Int := onDescriptor .lwip_sendmsg s [message, flags]

/-- `lwip_sendto` -/
def sendto (s dataptr size flags to_ tolen : Int) : Sock Int :=
  onDescriptor .lwip_sendto s [dataptr, size, flags, to_, tolen]

/-- `lwip_writev` -/
def writev (s iov iovcnt : Int) : Sock Int := onDescriptor .lwip_writev s [iov, iovcnt]

/-- `lwip_close`; the slot is kept. -/
def closesocket (s : Int) : Sock Int := do
  lwip_close (← netLwIP_FD s)

/-! ## §4. Calls. -/

/-- What a thread calls.  picoos-micro finds the file for a close, a read and a write. -/
inductive Call where
  | socket (domain type protocol : Int)
  | accept (s : Nat) (addr addrlen : Int)
  | close (file : Nat)
  | closesocket (s : Nat)
  | sockTransfer (function : LwipFunction) (file : Nat) (buf len : Int)
  | onDescriptor (function : LwipFunction) (s : Nat) (args : List Int)

/-- The function that is called. -/
def Call.body : Call → Sock Int
  | .socket domain type protocol => Threads.socket domain type protocol
  | .accept s addr addrlen => Threads.accept s addr addrlen
  | .close file => sockClose file
  | .closesocket s => Threads.closesocket s
  | .sockTransfer function file buf len => Threads.sockTransfer function file buf len
  | .onDescriptor function s args => Threads.onDescriptor function s args

/-- The socket that it is about. -/
def Call.slot : Call → Option Nat
  | .socket _ _ _ => none
  | .accept s _ _ => some s
  | .close file => some file
  | .closesocket s => some s
  | .sockTransfer _ file _ _ => some file
  | .onDescriptor _ s _ => some s

/-- The one that it closes. -/
def Call.closes : Call → Option Nat
  | .close file => some file
  | .closesocket s => some s
  | _ => none

/-- The slot that it gives up without freeing it. -/
def Call.leavesSlot : Call → Option Nat
  | .closesocket s => some s
  | _ => none

/-- What it asks of lwIP, once the descriptor of its socket is known to be `fd`. -/
def Call.onLwip : Call → Int → FileOp
  | .socket domain type protocol, _ => .lwip_socket domain type protocol
  | .accept _ addr addrlen, fd => .lwip_accept fd addr addrlen
  | .close _, fd => .lwip_close fd
  | .closesocket _, fd => .lwip_close fd
  | .sockTransfer function _ buf len, fd => .lwip function fd [buf, len]
  | .onDescriptor function _ args, fd => .lwip function fd args

/-- The socket that it has opened, by its result. -/
def Call.opens : Call → Int → Option Nat
  | .socket _ _ _, res | .accept _ _ _, res => if res = -1 then none else some res.toNat
  | _, _ => none

/-! ## §5. picoos-micro and lwIP. -/

/-- A field of a file is set. -/
def setFile (w : World) (i : Nat) (f : UosFile → UosFile) : World :=
  { w with slots := w.slots.modify i fun sl => { sl with file := f sl.file } }

/-- What each access does. -/
def fileEnv : Program.Env World FileOp FileOp.Ans
  | w, .uosFileAlloc, ans, w' =>
      (ans = none ∧ w' = w) ∨ ∃ i, ans = some i ∧ w.FreeSlot i ∧ w' = Sockets.uosFileAlloc i w
  | w, .uosFileFree file, _, w' => w' = Sockets.uosFileFree file w
  | w, .uosSlot2File s, ans, w' =>
      ans = (Sockets.uosSlot2File w s).map (fun _ => s.toNat) ∧ w' = w
  | w, .fs file, ans, w' => (∃ sl, w.slots[file]? = some sl ∧ ans = sl.file.fs) ∧ w' = w
  | w, .fsPrivFd file, ans, w' =>
      (∃ sl, w.slots[file]? = some sl ∧ ans = sl.file.fsPrivFd) ∧ w' = w
  | w, .setFs file fs, _, w' => w' = setFile w file fun f => { f with fs := fs }
  | w, .setCf file cf, _, w' => w' = setFile w file fun f => { f with cf := cf }
  | w, .setFsPrivFd file fd, _, w' => w' = setFile w file fun f => { f with fsPrivFd := fd }
  -- an assertion that is false does not return
  | w, .P_ASSERT holds, _, w' => holds = true ∧ w' = w
  -- a descriptor that lwIP gives out was not open
  | w, .lwip_socket _ _ _, (sock : Int), w' =>
      (sock ≠ -1 → sock ∉ w.opened) ∧ w' = lwipOpen sock w
  | w, .lwip_accept _ _ _, (sock : Int), w' =>
      (sock ≠ -1 → sock ∉ w.opened) ∧ w' = lwipOpen sock w
  | w, .lwip_close fd, (res : Int), w' => ∃ ok, (res, w') = Sockets.lwip_close fd ok w
  | w, .lwip _ _ _, _, w' => w' = w

/-! ## §6. One call alone. -/

section Alone

variable {w w' : World} {res : Int}

/-- A file, asserted to be a socket's, and its descriptor. -/
theorem exec_asserted {file : Nat} {α : Type} {f : Int → Sock α} {a : α}
    (h : Program.Exec fileEnv w (do
      P_ASSERT ((← fs file) = .sockFS)
      f (← fsPrivFd file)) a w') :
    ∃ sl, w.slots[file]? = some sl ∧ sl.file.fs = .sockFS
      ∧ Program.Exec fileEnv w (f sl.file.fsPrivFd) a w' := by
  obtain ⟨filesystem, w₁, hfs, hassert⟩ := Program.exec_bind.mp h
  obtain ⟨⟨sl, hsl, rfl⟩, rfl⟩ := Program.exec_perform.mp hfs
  obtain ⟨_, w₂, hholds, hload⟩ := Program.exec_bind.mp hassert
  obtain ⟨hsock, rfl⟩ := Program.exec_perform.mp hholds
  obtain ⟨fd, w₃, hfd, hrest⟩ := Program.exec_bind.mp hload
  obtain ⟨⟨sl', hsl', rfl⟩, rfl⟩ := Program.exec_perform.mp hfd
  obtain rfl := Option.some.inj (hsl'.symm.trans hsl)
  exact ⟨sl', hsl', of_decide_eq_true hsock, hrest⟩

/-- What `netLwIP_FD` returns, if its assertion holds. -/
theorem exec_netLwIP_FD {s fd : Int} (h : Program.Exec fileEnv w (netLwIP_FD s) fd w') :
    Sockets.netLwIP_FD w s = some fd ∧ w' = w := by
  obtain ⟨ans, w₁, hfile, hrest⟩ := Program.exec_bind.mp h
  obtain ⟨hans, rfl⟩ := Program.exec_perform.mp hfile
  unfold Sockets.netLwIP_FD
  cases hslot : Sockets.uosSlot2File w₁ s with
  | none =>
      rw [hslot] at hans
      subst hans
      obtain ⟨rfl, rfl⟩ := Program.exec_pure.mp hrest
      exact ⟨rfl, rfl⟩
  | some f =>
      rw [hslot] at hans
      subst hans
      -- the file is that of the slot
      unfold Sockets.uosSlot2File at hslot
      split at hslot
      · exact absurd hslot (by simp)
      · obtain ⟨sl, hsl, rfl⟩ := Option.map_eq_some_iff.mp hslot
        have hsl := (Option.filter_eq_some_iff.mp hsl).1
        obtain ⟨sl', hsl', hsock, hret⟩ := exec_asserted (f := Program.ret) hrest
        obtain rfl := Option.some.inj (hsl'.symm.trans hsl)
        obtain ⟨rfl, rfl⟩ := Program.exec_pure.mp hret
        exact ⟨if_pos hsock, rfl⟩

/-- It does what the whole function does at once. -/
theorem exec_finishOpen {i : Nat} {sock : Int}
    (h : Program.Exec fileEnv w (finishOpen i sock) res w') :
    (res, w') = Sockets.finishOpen i sock w := by
  unfold finishOpen at h
  unfold Sockets.finishOpen
  by_cases hfail : sock = -1
  · rw [if_pos hfail] at h ⊢
    obtain ⟨_, w₁, hfree, hret⟩ := Program.exec_bind.mp h
    obtain rfl : w₁ = _ := Program.exec_perform.mp hfree
    obtain ⟨rfl, rfl⟩ := Program.exec_pure.mp hret
    rfl
  · rw [if_neg hfail] at h ⊢
    obtain ⟨_, w₁, hfs, h⟩ := Program.exec_bind.mp h
    obtain rfl : w₁ = _ := Program.exec_perform.mp hfs
    obtain ⟨_, w₂, hcf, h⟩ := Program.exec_bind.mp h
    obtain rfl : w₂ = _ := Program.exec_perform.mp hcf
    obtain ⟨_, w₃, hfd, hret⟩ := Program.exec_bind.mp h
    obtain rfl : w₃ = _ := Program.exec_perform.mp hfd
    obtain ⟨rfl, rfl⟩ := Program.exec_pure.mp hret
    -- three changes of one entry
    unfold setFile
    rw [List.modify_modify_eq, List.modify_modify_eq]
    rfl

/-- A call that nothing interrupts, as `FileTable` has it. -/
def Call.Alone (w : World) : Call → Int → World → Prop
  | .socket _ _ _, res, w' => ∃ slot sock, CallStep w (.socket slot sock, res) w'
  | .accept s _ _, res, w' => ∃ slot sock, CallStep w (.accept s slot sock, res) w'
  | .close file, res, w' => w.SocketSlot file → ∃ ok, CallStep w (.close file ok, res) w'
  | .closesocket s, res, w' => ∃ ok, CallStep w (.closesocket s ok, res) w'
  | .sockTransfer _ _ _ _, _, w' => w' = w
  | .onDescriptor _ _ _, _, w' => w' = w

/-- **One call alone** does what `FileTable` says in one step. -/
theorem exec_callStep {c : Call} (hrun : Program.Exec fileEnv w c.body res w') :
    c.Alone w res w' := by
  cases c with
  | socket domain type protocol =>
      obtain ⟨slot, w₁, halloc, hrest⟩ := Program.exec_bind.mp hrun
      rcases Program.exec_perform.mp halloc with ⟨rfl, rfl⟩ | ⟨i, rfl, hfree, rfl⟩
      · -- no slot: it returns before lwip_socket
        obtain ⟨rfl, rfl⟩ := Program.exec_pure.mp hrest
        exact ⟨none, -1, ⟨nofun, fun hne => absurd rfl hne⟩, rfl⟩
      · obtain ⟨sock, w₂, hsock, hfinish⟩ := Program.exec_bind.mp hrest
        obtain ⟨hfresh, rfl⟩ := Program.exec_perform.mp hsock
        refine ⟨some i, sock, ⟨fun j hj => Option.some.inj hj ▸ hfree, hfresh⟩, ?_⟩
        exact congrArg some (exec_finishOpen hfinish).symm
  | accept s addr addrlen =>
      obtain ⟨slot, w₁, halloc, hrest⟩ := Program.exec_bind.mp hrun
      rcases Program.exec_perform.mp halloc with ⟨rfl, rfl⟩ | ⟨i, rfl, hfree, rfl⟩
      · -- no slot: the connection stays with lwIP
        obtain ⟨rfl, rfl⟩ := Program.exec_pure.mp hrest
        exact ⟨none, -1, ⟨nofun, fun hne => absurd rfl hne⟩, rfl⟩
      · obtain ⟨fd, w₂, hfd, haccept⟩ := Program.exec_bind.mp hrest
        obtain ⟨hdescriptor, rfl⟩ := exec_netLwIP_FD hfd
        obtain ⟨sock, w₃, hsock, hfinish⟩ := Program.exec_bind.mp haccept
        obtain ⟨hfresh, rfl⟩ := Program.exec_perform.mp hsock
        refine ⟨some i, sock, ⟨fun j hj => Option.some.inj hj ▸ hfree, hfresh⟩, ?_⟩
        show Sockets.accept s (some i) sock w = some (res, w')
        unfold Sockets.accept
        dsimp only
        rw [hdescriptor]
        exact congrArg some (exec_finishOpen hfinish).symm
  | close file =>
      intro hslot
      -- the assertion holds, so the slot has a socket in it
      obtain ⟨sl, hsl, hsock, hrest⟩ := exec_asserted hrun
      obtain ⟨closed, w₁, hlwip, hfree⟩ := Program.exec_bind.mp hrest
      -- whether lwip_close fails or not, the file is freed
      obtain ⟨ok, hclose⟩ := Program.exec_perform.mp hlwip
      obtain ⟨_, w₂, huosFree, hret⟩ := Program.exec_bind.mp hfree
      obtain rfl : w₂ = Sockets.uosFileFree file w₁ := Program.exec_perform.mp huosFree
      obtain ⟨rfl, rfl⟩ := Program.exec_pure.mp hret
      refine ⟨ok, hslot, ?_⟩
      show Sockets.sockClose file ok w = some (0, _)
      unfold Sockets.sockClose
      rw [hsl]
      dsimp only
      rw [if_pos hsock, ← hclose]
  | closesocket s =>
      obtain ⟨fd, w₁, hfd, hlwip⟩ := Program.exec_bind.mp hrun
      obtain ⟨hdescriptor, rfl⟩ := exec_netLwIP_FD hfd
      -- the file stays: the macro has nothing but lwip_close in it
      obtain ⟨ok, hclose⟩ := Program.exec_perform.mp hlwip
      refine ⟨ok, trivial, ?_⟩
      show Sockets.closesocket s ok w₁ = some (res, w')
      unfold Sockets.closesocket
      rw [hdescriptor, hclose]
      rfl
  | sockTransfer function file buf len =>
      obtain ⟨sl, hsl, hsock, hlwip⟩ := exec_asserted hrun
      exact Program.exec_perform.mp hlwip
  | onDescriptor function s args =>
      obtain ⟨fd, w₁, hfd, hlwip⟩ := Program.exec_bind.mp hrun
      obtain ⟨-, rfl⟩ := exec_netLwIP_FD hfd
      exact Program.exec_perform.mp hlwip

end Alone

/-! ## §7. What a thread has. -/

/-- The files that are allocated to a thread, with what is in them, and its descriptors. -/
structure Held where
  file : Nat → Option UosFile
  fds : Set Int

/-- The same with another file in a slot. -/
def Held.setFile (r : Held) (i : Nat) (file : Option UosFile) : Held :=
  { r with file := Function.update r.file i file }

/-- One more descriptor. -/
def Held.addFd (r : Held) (fd : Int) : Held := { r with fds := insert fd r.fds }

/-- One less. -/
def Held.removeFd (r : Held) (fd : Int) : Held := { r with fds := r.fds \ {fd} }

@[simp] theorem setFile_self (r : Held) (i : Nat) (file : Option UosFile) :
    (r.setFile i file).file i = file := Function.update_self ..

/-- The other slots are as they were. -/
theorem setFile_of_ne (r : Held) {i j : Nat} (h : j ≠ i) (file : Option UosFile) :
    (r.setFile i file).file j = r.file j := Function.update_of_ne h ..

@[simp] theorem setFile_fds (r : Held) (i : Nat) (file : Option UosFile) :
    (r.setFile i file).fds = r.fds := rfl

/-- The later file counts. -/
@[simp] theorem setFile_setFile (r : Held) (i : Nat) (file file' : Option UosFile) :
    (r.setFile i file).setFile i file' = r.setFile i file' := by
  unfold Held.setFile
  rw [Function.update_idem]

/-- A file that is there after a slot was emptied is in another slot, and was there before. -/
theorem of_unsetFile {r : Held} {i j : Nat} {file : UosFile}
    (h : (r.setFile i none).file j = some file) : j ≠ i ∧ r.file j = some file := by
  by_cases hji : j = i
  · subst hji
    rw [setFile_self] at h
    exact absurd h (by simp)
  · rw [setFile_of_ne r hji] at h
    exact ⟨hji, h⟩

/-- The file that is there already. -/
theorem setFile_eq_self {r : Held} {i : Nat} {file : Option UosFile} (h : r.file i = file) :
    r.setFile i file = r := by
  subst h
  unfold Held.setFile
  rw [Function.update_eq_self]

/-- It is a part of the tables. -/
structure Held.Valid (w : World) (r : Held) : Prop where
  files : ∀ i f, r.file i = some f → w.slots[i]? = some ⟨true, f⟩
  fds : ∀ fd ∈ r.fds, fd ∈ w.opened

/-- No file and no descriptor is in both. -/
structure Held.Apart (r q : Held) : Prop where
  files : ∀ i, r.file i = none ∨ q.file i = none
  fds : ∀ fd ∈ r.fds, fd ∉ q.fds

/-- The thread's sockets are its files, each with a descriptor of its own. -/
structure Held.Owns (v : Set Nat) (r : Held) : Prop where
  only : ∀ i, r.file i ≠ none → i ∈ v
  socket : ∀ i ∈ v, ∃ fd ∈ r.fds, r.file i = some ⟨.sockFS, .sockConf, fd⟩
  unshared : ∀ i j f, r.file i = some f → r.file j = some f → i = j

/-- While a call is under way the other sockets stay as they are. -/
def Held.Keeps (v : Set Nat) (c : Call) (r₀ r : Held) : Prop :=
  ∀ i ∈ v, c.closes ≠ some i → r.file i = r₀.file i ∧ ∀ f, r.file i = some f → f.fsPrivFd ∈ r.fds

/-- The operation is the call of lwIP that `c` is for, on the descriptor of its socket. -/
def Held.Asks (c : Call) (r : Held) (op : FileOp) : Prop :=
  ∃ fd, op = c.onLwip fd ∧ ∀ i ∈ c.slot, fd ∈ r.fds ∧ r.file i = some ⟨.sockFS, .sockConf, fd⟩

/-- What an operation of the call needs. -/
def Held.Needs (c : Call) (r : Held) : FileOp → Prop
  -- the file is the thread's
  | .uosFileFree file => r.file file ≠ none
  | .fs file => r.file file ≠ none
  | .fsPrivFd file => r.file file ≠ none
  | .setFs file _ => r.file file ≠ none
  | .setCf file _ => r.file file ≠ none
  | .setFsPrivFd file _ => r.file file ≠ none
  | .P_ASSERT holds => holds = true
  | .uosFileAlloc | .uosSlot2File _ => True
  -- lwIP is called with the thread's own descriptor only
  | op => r.Asks c op

/-- The slot is given up as it is. -/
def Held.drop (r : Held) : Option Nat → Held
  | none => r
  | some i => r.setFile i none

/-- What it leaves.  A call that gives up a slot does so when it closes the descriptor. -/
def Held.Leaves (c : Call) (r : Held) : (op : FileOp) → op.Ans → Held → Prop
  | .uosFileAlloc, (ans : Option Nat), r' => match ans with
      | none => r' = r
      | some i => r.file i = none ∧ ∃ f, r' = r.setFile i (some f)
  | .uosFileFree file, _, r' => r' = r.setFile file none
  -- nothing of the thread's changes, and the answer is about its own file
  | .uosSlot2File s, ans, r' =>
      r' = r ∧ ∀ i : Nat, s = i → r.file i ≠ none → ans = some i
  | .fs file, ans, r' => r' = r ∧ ∀ f ∈ r.file file, ans = f.fs
  | .fsPrivFd file, ans, r' => r' = r ∧ ∀ f ∈ r.file file, ans = f.fsPrivFd
  | .setFs file fs, _, r' =>
      ∃ f, r.file file = some f ∧ r' = r.setFile file (some { f with fs := fs })
  | .setCf file cf, _, r' =>
      ∃ f, r.file file = some f ∧ r' = r.setFile file (some { f with cf := cf })
  | .setFsPrivFd file fd, _, r' =>
      ∃ f, r.file file = some f ∧ r' = r.setFile file (some { f with fsPrivFd := fd })
  | .P_ASSERT _, _, r' => r' = r
  | .lwip_socket _ _ _, (sock : Int), r' | .lwip_accept _ _ _, (sock : Int), r' =>
      if sock = -1 then r' = r else sock ∉ r.fds ∧ r' = r.addFd sock
  | .lwip_close fd, _, r' => ∃ q : Held, (q = r ∨ q = r.removeFd fd) ∧ r' = q.drop c.leavesSlot
  | .lwip _ _ _, _, r' => r' = r

/-! ## §8. Operations stay inside. -/

section Inside

variable {w w' : World} {r q : Held} {i : Nat}

/-- One slot changes that is none of the thread's. -/
theorem Held.Valid.modify (h : q.Valid w) (hi : q.file i = none) (g : Slot → Slot) :
    q.Valid { w with slots := w.slots.modify i g } where
  files j f hf := by
    have hne : ¬ i = j := by
      rintro rfl
      rw [hi] at hf
      exact absurd hf (by simp)
    show (w.slots.modify i g)[j]? = _
    rw [List.getElem?_modify_ne g _ hne, h.files j f hf]
  fds := h.fds

/-- One slot changes, and the thread has it afterwards. -/
theorem Held.Valid.setFile (h : r.Valid w) {g : Slot → Slot} {sl : Slot} {f : UosFile}
    (hsl : w.slots[i]? = some sl) (hg : g sl = ⟨true, f⟩) :
    (r.setFile i (some f)).Valid { w with slots := w.slots.modify i g } where
  files j f' hf := by
    show (w.slots.modify i g)[j]? = _
    by_cases hij : i = j
    · subst hij
      rw [setFile_self] at hf
      obtain rfl := Option.some.inj hf
      rw [List.getElem?_modify_eq, hsl]
      exact congrArg some hg
    · rw [setFile_of_ne r (Ne.symm hij)] at hf
      rw [List.getElem?_modify_ne g _ hij, h.files j f' hf]
  fds := h.fds

/-- A thread may have less. -/
theorem Held.Valid.drop (h : r.Valid w) (slot : Option Nat) : (r.drop slot).Valid w := by
  cases slot with
  | none => exact h
  | some i =>
      exact ⟨fun j f hf => h.files j f (of_unsetFile hf).2, h.fds⟩

/-- One slot changes that the thread had. -/
theorem Held.Valid.unsetFile (h : r.Valid w) (i : Nat) (g : Slot → Slot) :
    (r.setFile i none).Valid { w with slots := w.slots.modify i g } :=
  (h.drop (some i)).modify (setFile_self ..) g

/-- Neither holds what the other one holds. -/
theorem Held.Apart.symm (h : r.Apart q) : q.Apart r :=
  ⟨fun i => (h.files i).symm, fun fd hq hr => h.fds fd hr hq⟩

/-- A slot that nobody else holds may be changed. -/
theorem Held.Apart.setFile (h : r.Apart q) (hi : q.file i = none) (file : Option UosFile) :
    (r.setFile i file).Apart q where
  files j := by
    by_cases hji : j = i
    · subst hji
      exact .inr hi
    · rw [setFile_of_ne r hji]
      exact h.files j
  fds := h.fds

/-- What is left is still apart. -/
theorem Held.Apart.drop (h : r.Apart q) (slot : Option Nat) : (r.drop slot).Apart q := by
  cases slot with
  | none => exact h
  | some i =>
      refine ⟨fun j => ?_, h.fds⟩
      show (r.setFile i none).file j = none ∨ _
      by_cases hji : j = i
      · subst hji
        exact .inl (setFile_self ..)
      · rw [setFile_of_ne r hji]
        exact h.files j

/-- What one thread has no other has. -/
theorem Held.Apart.file_eq_none (h : r.Apart q) (hi : r.file i ≠ none) : q.file i = none :=
  (h.files i).resolve_left hi

/-- A slot that the file table hands out is nobody's. -/
theorem Held.Valid.free (h : q.Valid w) (hfree : w.FreeSlot i) : q.file i = none := by
  obtain ⟨sl, hsl, halloc⟩ := hfree
  by_contra hne
  obtain ⟨f, hf⟩ := Option.ne_none_iff_exists'.mp hne
  have hslot := h.files i f hf
  rw [hsl] at hslot
  rw [Option.some.inj hslot] at halloc
  exact absurd halloc (by simp)

/-- What is read in the slot of a file that the thread has is that file. -/
theorem Held.Valid.file_eq (h : r.Valid w) {sl : Slot} (hsl : w.slots[i]? = some sl) {f : UosFile}
    (hf : r.file i = some f) : sl.file = f := by
  rw [h.files i f hf] at hsl
  rw [← Option.some.inj hsl]

/-- A descriptor that lwIP hands out is nobody's. -/
theorem Held.Valid.fresh (h : q.Valid w) {sock : Int} (hsock : sock ∉ w.opened) : sock ∉ q.fds :=
  fun hq => hsock (h.fds sock hq)

/-- A new descriptor is nothing to the others. -/
theorem Held.Valid.addOpened (h : q.Valid w) (sock : Int) :
    q.Valid { w with opened := sock :: w.opened } :=
  ⟨h.files, fun fd hfd => List.mem_cons_of_mem _ (h.fds fd hfd)⟩

/-- Nor is one that is closed. -/
theorem Held.Valid.closeFd (h : q.Valid w) {fd : Int} (hfd : fd ∉ q.fds) :
    q.Valid (w.closeFd fd) where
  files := h.files
  fds x hx := by
    refine List.mem_filter.mpr ⟨h.fds x hx, decide_eq_true ?_⟩
    rintro rfl
    exact hfd hx

/-- One field of a file of the thread. -/
theorem inside_setFile (hr : r.Valid w) {f : UosFile} (hf : r.file i = some f)
    (g : UosFile → UosFile) :
    (r.setFile i (some (g f))).Valid (setFile w i g)
      ∧ ∀ q, q.Valid w → r.Apart q →
        q.Valid (setFile w i g) ∧ (r.setFile i (some (g f))).Apart q := by
  refine ⟨hr.setFile (hr.files i f hf) rfl, fun q hq hrq => ?_⟩
  have hnone := hrq.file_eq_none (hf ▸ Option.some_ne_none f)
  exact ⟨hq.modify hnone _, hrq.setFile hnone _⟩

/-- A new descriptor, or none. -/
theorem inside_open (hr : r.Valid w) {sock : Int} (hsock : sock ≠ -1 → sock ∉ w.opened) :
    ∃ r', (if sock = -1 then r' = r else sock ∉ r.fds ∧ r' = r.addFd sock)
      ∧ r'.Valid (lwipOpen sock w)
      ∧ ∀ q, q.Valid w → r.Apart q → q.Valid (lwipOpen sock w) ∧ r'.Apart q := by
  unfold lwipOpen
  by_cases hfail : sock = -1
  · rw [if_pos hfail]
    simp only [if_pos hfail]
    exact ⟨r, rfl, hr, fun q hq hrq => ⟨hq, hrq⟩⟩
  · have hfresh := hsock hfail
    rw [if_neg hfail]
    simp only [if_neg hfail]
    refine ⟨_, ⟨hr.fresh hfresh, rfl⟩, ⟨hr.files, ?_⟩,
      fun q hq hrq => ⟨hq.addOpened sock, hrq.files, ?_⟩⟩
    · rintro fd (rfl | hfd)
      · exact List.mem_cons_self ..
      · exact List.mem_cons_of_mem _ (hr.fds fd hfd)
    · rintro fd (rfl | hfd)
      · exact hq.fresh hfresh
      · exact hrq.fds fd hfd

/-- What lwIP is to close is the thread's. -/
theorem mem_of_closes {c : Call} {fd : Int} (h : r.Asks c (.lwip_close fd)) : fd ∈ r.fds := by
  obtain ⟨fd', hop, hsocket⟩ := h
  cases c with
  | close file =>
      obtain rfl := FileOp.lwip_close.inj hop
      exact (hsocket file rfl).1
  | closesocket s =>
      obtain rfl := FileOp.lwip_close.inj hop
      exact (hsocket s rfl).1
  | socket | accept | sockTransfer | onDescriptor => exact absurd hop nofun

/-- **An operation of a thread** changes what the thread has, and nothing that others have. -/
theorem inside {c : Call} {op : FileOp} {ans : op.Ans} (hr : r.Valid w) (hpre : r.Needs c op)
    (hop : fileEnv w op ans w') :
    ∃ r', r.Leaves c op ans r' ∧ r'.Valid w'
      ∧ ∀ q, q.Valid w → r.Apart q → q.Valid w' ∧ r'.Apart q := by
  cases op with
  | uosFileAlloc =>
      rcases hop with ⟨rfl, rfl⟩ | ⟨i, rfl, hfree, rfl⟩
      · -- all slots are taken
        exact ⟨r, rfl, hr, fun q hq hrq => ⟨hq, hrq⟩⟩
      · -- nobody has a file in a free slot, so the new one is outside what others have
        obtain ⟨sl, hsl, -⟩ := id hfree
        refine ⟨r.setFile i (some sl.file), ⟨hr.free hfree, _, rfl⟩, hr.setFile hsl rfl, ?_⟩
        exact fun q hq hrq => ⟨hq.modify (hq.free hfree) _, hrq.setFile (hq.free hfree) _⟩
  | uosFileFree file =>
      obtain rfl : w' = Sockets.uosFileFree file w := hop
      refine ⟨r.setFile file none, rfl, hr.unsetFile file _, fun q hq hrq => ?_⟩
      -- the slot is the thread's own, so it is nobody else's
      have hnone := hrq.file_eq_none hpre
      exact ⟨hq.modify hnone _, hrq.setFile hnone _⟩
  | uosSlot2File s =>
      obtain ⟨hans, rfl⟩ := hop
      refine ⟨r, ⟨rfl, fun i hi hne => ?_⟩, hr, fun q hq hrq => ⟨hq, hrq⟩⟩
      obtain ⟨f, hf⟩ := Option.ne_none_iff_exists'.mp hne
      subst hi
      -- a slot number is never negative
      have hnat : ¬ (i : Int) < 0 := Int.not_lt.mpr (Int.natCast_nonneg i)
      rw [hans]
      unfold Sockets.uosSlot2File
      rw [if_neg hnat, Int.toNat_natCast, hr.files i f hf]
      rfl
  | fs file =>
      obtain ⟨⟨sl, hsl, hans⟩, rfl⟩ := hop
      refine ⟨r, ⟨rfl, fun f hf => ?_⟩, hr, fun q hq hrq => ⟨hq, hrq⟩⟩
      rw [hans, hr.file_eq hsl hf]
  | fsPrivFd file =>
      obtain ⟨⟨sl, hsl, hans⟩, rfl⟩ := hop
      refine ⟨r, ⟨rfl, fun f hf => ?_⟩, hr, fun q hq hrq => ⟨hq, hrq⟩⟩
      rw [hans, hr.file_eq hsl hf]
  | setFs file fs =>
      obtain rfl : w' = _ := hop
      obtain ⟨f, hf⟩ := Option.ne_none_iff_exists'.mp hpre
      exact ⟨_, ⟨f, hf, rfl⟩, inside_setFile hr hf _⟩
  | setCf file cf =>
      obtain rfl : w' = _ := hop
      obtain ⟨f, hf⟩ := Option.ne_none_iff_exists'.mp hpre
      exact ⟨_, ⟨f, hf, rfl⟩, inside_setFile hr hf _⟩
  | setFsPrivFd file fd =>
      obtain rfl : w' = _ := hop
      obtain ⟨f, hf⟩ := Option.ne_none_iff_exists'.mp hpre
      exact ⟨_, ⟨f, hf, rfl⟩, inside_setFile hr hf _⟩
  | P_ASSERT holds =>
      obtain ⟨-, rfl⟩ := hop
      exact ⟨r, rfl, hr, fun q hq hrq => ⟨hq, hrq⟩⟩
  | lwip_socket domain type protocol =>
      obtain ⟨hsock, rfl⟩ := hop
      exact inside_open hr hsock
  | lwip_accept fd addr addrlen =>
      obtain ⟨hsock, rfl⟩ := hop
      exact inside_open hr hsock
  | lwip_close fd =>
      obtain ⟨ok, hclose⟩ := hop
      unfold Sockets.lwip_close at hclose
      split at hclose
      · -- lwip_close has failed, and the descriptor is still open
        obtain ⟨-, rfl⟩ := Prod.mk.inj hclose
        -- lwip_close has closed the descriptor: the thread has it no more
        have hless : (r.removeFd fd).Valid (w.closeFd fd) := by
          refine ⟨hr.files, ?_⟩
          rintro x ⟨hx, hne⟩
          exact List.mem_filter.mpr ⟨hr.fds x hx, decide_eq_true hne⟩
        refine ⟨_, ⟨_, .inr rfl, rfl⟩, hless.drop _, fun q hq hrq => ?_⟩
        -- it was the thread's own, so nobody else loses it
        have hapart : (r.removeFd fd).Apart q := ⟨hrq.files, fun x hx => hrq.fds x hx.1⟩
        exact ⟨hq.closeFd (hrq.fds fd (mem_of_closes hpre)), hapart.drop _⟩
      · obtain ⟨-, rfl⟩ := Prod.mk.inj hclose
        exact ⟨_, ⟨r, .inl rfl, rfl⟩, hr.drop _, fun q hq hrq => ⟨hq, hrq.drop _⟩⟩
  | lwip function fd args =>
      obtain rfl : w' = w := hop
      exact ⟨r, rfl, hr, fun q hq hrq => ⟨hq, hrq⟩⟩

end Inside

/-! ## §9. The functions stay inside. -/

/-- A thread calls with its own sockets only. -/
def allowed (v : Set Nat) (c : Call) : Prop := ∀ i ∈ c.slot, i ∈ v

/-- Its sockets after a call. -/
def after (v : Set Nat) (c : Call) (res : Int) : Set Nat :=
  {i | (i ∈ v ∧ c.closes ≠ some i) ∨ c.opens res = some i}

/-- Needs and leavings. -/
def footprint (c : Call) : Footprint FileOp FileOp.Ans Held := ⟨Held.Needs c, Held.Leaves c⟩

section Functions

variable {v : Set Nat} {c : Call} {r₀ r : Held} {i : Nat} {fd : Int}

/-- At the start of a call nothing has changed. -/
theorem Held.Owns.keeps (h : r.Owns v) (c : Call) : r.Keeps v c r := by
  intro i hi _
  obtain ⟨fd, hfd, hfile⟩ := h.socket i hi
  refine ⟨rfl, fun f hf => ?_⟩
  rw [hfile] at hf
  rw [← Option.some.inj hf]
  exact hfd

/-- An empty slot is no socket of the thread's. -/
theorem Held.Owns.not_mem (h : r.Owns v) (hi : r.file i = none) : i ∉ v := by
  intro hv
  obtain ⟨fd, -, hsocket⟩ := h.socket i hv
  exact absurd (hsocket.symm.trans hi) (by simp)

/-- A slot may change that is not a socket of the thread's, or is being closed. -/
theorem Held.Keeps.setFile (h : Held.Keeps v c r₀ r) (hi : i ∈ v → c.closes = some i)
    (file : Option UosFile) : Held.Keeps v c r₀ (r.setFile i file) := by
  intro j hj hopen
  have hji : j ≠ i := by
    rintro rfl
    exact hopen (hi hj)
  rw [setFile_of_ne r hji]
  exact h j hj hopen

/-- A new descriptor changes nothing. -/
theorem Held.Keeps.addFd (h : Held.Keeps v c r₀ r) (fd : Int) :
    Held.Keeps v c r₀ (r.addFd fd) := fun i hi hopen =>
  ⟨(h i hi hopen).1, fun f hf => .inr ((h i hi hopen).2 f hf)⟩

/-- A thread has opened a socket. -/
theorem Held.Owns.grant (h : r.Owns v) (hi : r.file i = none) {sock : Int} (hsock : sock ∉ r.fds) :
    ((r.setFile i (some ⟨.sockFS, .sockConf, sock⟩)).addFd sock).Owns (insert i v) := by
  -- the new descriptor is in none of the old files
  have hfresh : ∀ j fd, fd ∈ r.fds → r.file j = some ⟨.sockFS, .sockConf, fd⟩ → fd ≠ sock := by
    rintro j fd hfd - rfl
    exact hsock hfd
  -- a file is the new one or an old one, and the two have different descriptors
  have hfile : ∀ j f, Function.update r.file i (some ⟨.sockFS, .sockConf, sock⟩) j = some f →
      (j = i ∧ f = ⟨.sockFS, .sockConf, sock⟩) ∨ (r.file j = some f ∧ f.fsPrivFd ≠ sock) := by
    intro j f hf
    by_cases hji : j = i
    · subst hji
      rw [Function.update_self] at hf
      exact .inl ⟨rfl, (Option.some.inj hf).symm⟩
    · rw [Function.update_of_ne hji] at hf
      obtain ⟨fd, hfd, hsocket⟩ := h.socket j (h.only j (hf ▸ Option.some_ne_none f))
      rw [hsocket] at hf
      obtain rfl := Option.some.inj hf
      exact .inr ⟨hsocket, hfresh j fd hfd hsocket⟩
  refine ⟨fun j hj => ?_, ?_, fun j k f hj hk => ?_⟩
  · obtain ⟨f, hf⟩ := Option.ne_none_iff_exists'.mp hj
    rcases hfile j f hf with ⟨rfl, -⟩ | ⟨hf, -⟩
    · exact .inl rfl
    · exact .inr (h.only j (hf ▸ Option.some_ne_none f))
  · rintro j (rfl | hj)
    · exact ⟨sock, .inl rfl, Function.update_self ..⟩
    · obtain ⟨fd, hfd, hsocket⟩ := h.socket j hj
      have hji : j ≠ i := by
        rintro rfl
        exact absurd (hsocket.symm.trans hi) (by simp)
      exact ⟨fd, .inr hfd, (Function.update_of_ne hji ..).trans hsocket⟩
  · -- one descriptor in two files: both are new, or both are old
    rcases hfile j f hj with ⟨rfl, hf⟩ | ⟨hf, hne⟩ <;>
      rcases hfile k f hk with ⟨rfl, hf'⟩ | ⟨hf', hne'⟩
    · rfl
    · exact absurd (congrArg UosFile.fsPrivFd hf) hne'
    · exact absurd (congrArg UosFile.fsPrivFd hf') hne
    · exact h.unshared j k f hf hf'

/-- A thread has closed a socket, with its descriptor or not. -/
theorem Held.Owns.release (h : r.Owns v) (hi : r.file i = some ⟨.sockFS, .sockConf, fd⟩) {q : Held}
    (hq : q = r ∨ q = r.removeFd fd) : (q.setFile i none).Owns (v \ {i}) := by
  have hfiles : q.file = r.file := by
    rcases hq with rfl | rfl <;> rfl
  -- the descriptor that goes was in no other file
  have hfds : ∀ j x, j ≠ i → x ∈ r.fds → r.file j = some ⟨.sockFS, .sockConf, x⟩ → x ∈ q.fds := by
    intro j x hji hx hj
    rcases hq with rfl | rfl
    · exact hx
    · refine ⟨hx, ?_⟩
      rintro rfl
      exact hji (h.unshared j i _ hj hi)
  have hfile : ∀ j f, (q.setFile i none).file j = some f → j ≠ i ∧ r.file j = some f := by
    intro j f hf
    obtain ⟨hji, hj⟩ := of_unsetFile hf
    rw [hfiles] at hj
    exact ⟨hji, hj⟩
  refine ⟨fun j hj => ?_, ?_, fun j k f hj hk => ?_⟩
  · obtain ⟨f, hf⟩ := Option.ne_none_iff_exists'.mp hj
    obtain ⟨hji, hf⟩ := hfile j f hf
    exact ⟨h.only j (hf ▸ Option.some_ne_none f), hji⟩
  · rintro j ⟨hj, hji⟩
    obtain ⟨x, hx, hsocket⟩ := h.socket j hj
    refine ⟨x, hfds j x hji hx hsocket, ?_⟩
    rw [setFile_of_ne q hji, hfiles]
    exact hsocket
  · exact h.unshared j k f (hfile j f hj).2 (hfile k f hk).2

/-- A call that neither opens nor closes. -/
theorem after_of_kept {res : Int} (hc : c.closes = none) (ho : c.opens res = none) :
    after v c res = v := by
  ext i
  unfold after
  rw [Set.mem_ofPred_eq, hc, ho]
  simp

/-- A call that has opened a socket. -/
theorem after_of_opens {res : Int} (hc : c.closes = none) (ho : c.opens res = some i) :
    after v c res = insert i v := by
  ext j
  unfold after
  rw [Set.mem_ofPred_eq, hc, ho, Set.mem_insert_iff, or_comm]
  simp [eq_comm]

/-- A call that has closed one. -/
theorem after_of_closes {res : Int} (hc : c.closes = some i) (ho : c.opens res = none) :
    after v c res = v \ {i} := by
  ext j
  unfold after
  rw [Set.mem_ofPred_eq, hc, ho, Set.mem_sdiff]
  simp [eq_comm]

/-- The assertion about a socket's file holds, and its descriptor is found. -/
theorem asserted_safe {I : Held → Prop} {α : Type} {Q : α → Held → Prop} {f : Int → Sock α}
    {cf : FileConf} (hI : I r) (hi : r.file i = some ⟨.sockFS, cf, fd⟩)
    (h : Safe (footprint c) I Q r (f fd)) :
    Safe (footprint c) I Q r (do
      P_ASSERT ((← fs i) = .sockFS)
      f (← fsPrivFd i)) := by
  have hne : r.file i ≠ none := hi ▸ Option.some_ne_none _
  refine .perform hI hne ?_
  rintro filesystem r' ⟨rfl, hfs⟩
  obtain rfl := hfs _ hi
  refine .perform hI (decide_eq_true rfl) ?_
  rintro _ r'' rfl
  refine .perform hI hne ?_
  rintro sock r' ⟨rfl, hsock⟩
  obtain rfl : sock = fd := hsock _ hi
  exact h

/-- **`netLwIP_FD` finds the descriptor**, and no assertion fails. -/
theorem netLwIP_FD_safe {I : Held → Prop} {cf : FileConf} (hI : I r)
    (hi : r.file i = some ⟨.sockFS, cf, fd⟩) :
    Safe (footprint c) I (fun ans r' => ans = fd ∧ r' = r) r (netLwIP_FD i) := by
  have hne : r.file i ≠ none := hi ▸ Option.some_ne_none _
  refine .perform hI trivial ?_
  rintro ans r' ⟨rfl, hans⟩
  obtain rfl := hans i rfl hne
  exact asserted_safe (f := Program.ret) hI hi (.pure hI ⟨rfl, rfl⟩)

/-- The tail of `socket` and `accept`, with a slot and with what lwIP has returned. -/
theorem finishOpen_safe {file : UosFile} {sock : Int} (h : r₀.Owns v) (hi : r₀.file i = none)
    (hc : c.closes = none) (ho : c.opens = fun res => if res = -1 then none else some res.toNat)
    (hr : if sock = -1 then r = r₀.setFile i (some file)
      else sock ∉ r₀.fds ∧ r = (r₀.setFile i (some file)).addFd sock) :
    Safe (footprint c) (Held.Keeps v c r₀) (fun res => Held.Owns (after v c res)) r
      (finishOpen i sock) := by
  have hkeeps : ∀ file, Held.Keeps v c r₀ (r₀.setFile i (some file)) := fun file =>
    (h.keeps c).setFile (fun hv => absurd hv (h.not_mem hi)) _
  unfold finishOpen
  by_cases hfail : sock = -1
  · rw [if_pos hfail] at hr ⊢
    subst hr
    refine .perform (hkeeps file) (by simp [footprint, Held.Needs]) ?_
    rintro _ r' rfl
    -- all is as before
    rw [setFile_setFile, setFile_eq_self hi]
    refine .pure (h.keeps c) ?_
    rw [after_of_kept hc (by rw [ho]; rfl)]
    exact h
  · rw [if_neg hfail] at hr ⊢
    obtain ⟨hsock, rfl⟩ := hr
    have hneeds : ∀ f, ((r₀.setFile i (some f)).addFd sock).file i = some f := fun f =>
      setFile_self ..
    have hhas : ∀ f, ((r₀.setFile i (some f)).addFd sock).file i ≠ none := by
      intro f
      rw [hneeds]
      exact Option.some_ne_none f
    -- each of the three stores changes the file of the slot, and nothing else
    have hstored : ∀ {f : UosFile} {g : UosFile → UosFile} {r' : Held},
        (∃ f', ((r₀.setFile i (some f)).addFd sock).file i = some f' ∧
          r' = ((r₀.setFile i (some f)).addFd sock).setFile i (some (g f'))) →
        r' = (r₀.setFile i (some (g f))).addFd sock := by
      rintro f g r' ⟨f', hf', rfl⟩
      obtain rfl := Option.some.inj ((hneeds f).symm.trans hf')
      exact congrArg (fun r => Held.addFd r sock) (setFile_setFile r₀ i (some f) (some (g f)))
    refine .perform ((hkeeps _).addFd sock) (hhas _) fun _ r' hfs => ?_
    obtain rfl := hstored hfs
    refine .perform ((hkeeps _).addFd sock) (hhas _) fun _ r' hcf => ?_
    obtain rfl := hstored hcf
    refine .perform ((hkeeps _).addFd sock) (hhas _) fun _ r' hfd => ?_
    obtain rfl := hstored hfd
    refine .pure ((hkeeps _).addFd sock) ?_
    have hopens : c.opens (i : Int) = some i := by
      have hne : ¬ (i : Int) = -1 := by omega
      rw [ho]
      show (if (i : Int) = -1 then none else some (i : Int).toNat) = some i
      rw [if_neg hne, Int.toNat_natCast]
    rw [after_of_opens hc hopens]
    exact h.grant hi hsock

/-- `socket` and `accept` give up if there is no slot, and go on with one that was free. -/
theorem alloc_safe (h : r₀.Owns v) (hc : c.closes = none) (ho : c.opens (-1) = none)
    {k : Option Nat → Sock Int} (hnone : k none = pure (-1))
    (hsome : ∀ i file, r₀.file i = none → Held.Keeps v c r₀ (r₀.setFile i (some file)) →
      Safe (footprint c) (Held.Keeps v c r₀) (fun res => Held.Owns (after v c res))
        (r₀.setFile i (some file)) (k (some i))) :
    Safe (footprint c) (Held.Keeps v c r₀) (fun res => Held.Owns (after v c res)) r₀
      (uosFileAlloc >>= k) := by
  refine .perform (h.keeps _) trivial ?_
  rintro (_ | i) r hr
  · obtain rfl : r = r₀ := hr
    rw [hnone]
    refine .pure (h.keeps _) ?_
    rw [after_of_kept hc ho]
    exact h
  · obtain ⟨hi, file, rfl⟩ := hr
    exact hsome i file hi ((h.keeps c).setFile (fun hv => absurd hv (h.not_mem hi)) (some file))

/-- **`socket`** takes a slot of its own, and leaves it open with a descriptor of its own. -/
theorem socket_safe (h : r₀.Owns v) (domain type protocol : Int) :
    Safe (footprint (.socket domain type protocol)) (Held.Keeps v (.socket domain type protocol) r₀)
      (fun res => Held.Owns (after v (.socket domain type protocol) res)) r₀
      (socket domain type protocol) := by
  refine alloc_safe h rfl rfl rfl fun i file hi hkeeps => ?_
  refine .perform hkeeps ⟨-1, rfl, nofun⟩ ?_
  exact fun sock r' hr' => finishOpen_safe h hi rfl rfl hr'

/-- What a call asks of lwIP for a socket of the thread. -/
theorem Held.Asks.of_socket (c : Call) (h : r.file i = some ⟨.sockFS, .sockConf, fd⟩)
    (hfd : fd ∈ r.fds) (hc : c.slot = some i) : r.Asks c (c.onLwip fd) := by
  refine ⟨fd, rfl, fun j hj => ?_⟩
  rw [hc] at hj
  obtain rfl := Option.some.inj hj
  exact ⟨hfd, h⟩

/-- **`accept`** does the same, and uses the socket that it is called on. -/
theorem accept_safe (h : r₀.Owns v) {s : Nat} (hs : s ∈ v) (addr addrlen : Int) :
    Safe (footprint (.accept s addr addrlen)) (Held.Keeps v (.accept s addr addrlen) r₀)
      (fun res => Held.Owns (after v (.accept s addr addrlen) res)) r₀ (accept s addr addrlen) := by
  obtain ⟨fd, hfd, hsocket⟩ := h.socket s hs
  refine alloc_safe h rfl rfl rfl fun i file hi hkeeps => ?_
  -- the slot of s is taken, the new one was free
  have hne : s ≠ i := by
    rintro rfl
    exact absurd (hsocket.symm.trans hi) (by simp)
  -- so the descriptor of s can still be read after the new file is there
  have hfile : (r₀.setFile i (some file)).file s = some ⟨.sockFS, .sockConf, fd⟩ :=
    (setFile_of_ne r₀ hne _).trans hsocket
  refine .bind ((netLwIP_FD_safe hkeeps hfile).mono ?_)
  rintro _ r ⟨rfl, rfl⟩
  have hasks := Held.Asks.of_socket (.accept s addr addrlen) hfile hfd rfl
  refine .perform hkeeps hasks ?_
  exact fun sock r' hr' => finishOpen_safe h hi rfl rfl hr'

/-- While a socket is closed the others keep their descriptors. -/
theorem Held.Owns.keeps_closing (h : r₀.Owns v)
    (hi : r₀.file i = some ⟨.sockFS, .sockConf, fd⟩) (hc : c.closes = some i) {q : Held}
    (hq : q = r₀ ∨ q = r₀.removeFd fd) : Held.Keeps v c r₀ q := by
  intro j hj hopen
  obtain ⟨fd', hfd', hj'⟩ := h.socket j hj
  have hji : j ≠ i := fun heq => hopen (hc.trans (congrArg some heq.symm))
  have hfile : q.file = r₀.file := by
    rcases hq with rfl | rfl <;> rfl
  refine ⟨congrFun hfile j, fun f hf => ?_⟩
  rw [hfile, hj'] at hf
  obtain rfl := Option.some.inj hf
  rcases hq with rfl | rfl
  · exact hfd'
  · refine ⟨hfd', ?_⟩
    rintro heq
    have heq : fd' = fd := heq
    subst heq
    exact hji (h.unshared j i _ hj' hi)

/-- **`sockClose`** gives up both the descriptor and the slot. -/
theorem sockClose_safe (h : r₀.Owns v) (hi : i ∈ v) :
    Safe (footprint (.close i)) (Held.Keeps v (.close i) r₀)
      (fun res => Held.Owns (after v (.close i) res)) r₀ (sockClose i) := by
  obtain ⟨fd, hfd, hsocket⟩ := h.socket i hi
  have hasks := Held.Asks.of_socket (.close i) hsocket hfd rfl
  refine asserted_safe (h.keeps _) hsocket (.perform (h.keeps _) hasks ?_)
  rintro _ q ⟨_, hq, rfl⟩
  -- the slot is still the thread's
  have hkeeps := h.keeps_closing (c := .close i) hsocket rfl hq
  have hfile : q.file i ≠ none := by
    have hne : r₀.file i ≠ none := hsocket ▸ Option.some_ne_none _
    rcases hq with rfl | rfl <;> exact hne
  refine .perform hkeeps hfile ?_
  rintro _ r' rfl
  refine .pure (hkeeps.setFile (fun _ => rfl) none) ?_
  rw [after_of_closes rfl rfl]
  exact h.release hsocket hq

/-- **`closesocket`** gives up the descriptor and leaves the slot behind. -/
theorem closesocket_safe (h : r₀.Owns v) (hi : i ∈ v) :
    Safe (footprint (.closesocket i)) (Held.Keeps v (.closesocket i) r₀)
      (fun res => Held.Owns (after v (.closesocket i) res)) r₀ (closesocket i) := by
  obtain ⟨fd, hfd, hsocket⟩ := h.socket i hi
  refine .bind ((netLwIP_FD_safe (h.keeps _) hsocket).mono ?_)
  rintro _ r ⟨rfl, rfl⟩
  have hasks := Held.Asks.of_socket (.closesocket i) hsocket hfd rfl
  refine .perform (h.keeps _) hasks ?_
  rintro (res : Int) _ ⟨q, hq, rfl⟩
  have hkeeps := h.keeps_closing (c := .closesocket i) hsocket rfl hq
  refine .pure (hkeeps.setFile (fun _ => rfl) none) ?_
  rw [after_of_closes rfl rfl]
  exact h.release hsocket hq

/-- A call of lwIP that opens and closes nothing leaves the thread what it has. -/
theorem lwip_safe (h : r₀.Owns v) (hc : c.closes = none) (ho : ∀ res, c.opens res = none)
    {function : LwipFunction} {args : List Int} (hasks : r₀.Asks c (.lwip function fd args)) :
    Safe (footprint c) (Held.Keeps v c r₀) (fun res => Held.Owns (after v c res)) r₀
      (lwip function fd args) := by
  refine .perform (h.keeps _) hasks ?_
  rintro (res : Int) r' rfl
  refine .pure (h.keeps _) ?_
  rw [after_of_kept hc (ho res)]
  exact h

/-- **`sockRead` and `sockWrite`** use the socket's descriptor. -/
theorem sockTransfer_safe (h : r₀.Owns v) (hi : i ∈ v) (function : LwipFunction) (buf len : Int) :
    Safe (footprint (.sockTransfer function i buf len))
      (Held.Keeps v (.sockTransfer function i buf len) r₀)
      (fun res => Held.Owns (after v (.sockTransfer function i buf len) res)) r₀
      (sockTransfer function i buf len) := by
  obtain ⟨fd, hfd, hsocket⟩ := h.socket i hi
  refine asserted_safe (h.keeps _) hsocket ?_
  have hasks := Held.Asks.of_socket (.sockTransfer function i buf len) hsocket hfd rfl
  exact lwip_safe h rfl (fun _ => rfl) hasks

/-- **The macros** use the socket's descriptor. -/
theorem onDescriptor_safe (h : r₀.Owns v) (hi : i ∈ v) (function : LwipFunction) (args : List Int) :
    Safe (footprint (.onDescriptor function i args))
      (Held.Keeps v (.onDescriptor function i args) r₀)
      (fun res => Held.Owns (after v (.onDescriptor function i args) res)) r₀
      (onDescriptor function i args) := by
  obtain ⟨fd, hfd, hsocket⟩ := h.socket i hi
  refine .bind ((netLwIP_FD_safe (h.keeps _) hsocket).mono ?_)
  rintro _ r ⟨rfl, rfl⟩
  have hasks := Held.Asks.of_socket (.onDescriptor function i args) hsocket hfd rfl
  exact lwip_safe h rfl (fun _ => rfl) hasks

/-- **Every call that is allowed** is safe. -/
theorem body_safe (hc : allowed v c) (h : r₀.Owns v) :
    Safe (footprint c) (Held.Keeps v c r₀) (fun res => Held.Owns (after v c res)) r₀ c.body := by
  cases c with
  | socket domain type protocol => exact socket_safe h domain type protocol
  | accept s addr addrlen => exact accept_safe h (hc s rfl) addr addrlen
  | close file => exact sockClose_safe h (hc file rfl)
  | closesocket s => exact closesocket_safe h (hc s rfl)
  | sockTransfer function file buf len => exact sockTransfer_safe h (hc file rfl) function buf len
  | onDescriptor function s args => exact onDescriptor_safe h (hc s rfl) function args

end Functions

/-! ## §10. Whole runs. -/

/-- A socket moves from one thread to another. -/
theorem handed {v w : Set Nat} {r q : Held} {i : Nat} (hi : i ∈ v) (hr : r.Owns v) (hq : q.Owns w)
    (hrq : r.Apart q) : ∃ r' q' : Held, r'.Owns (v \ {i}) ∧ q'.Owns (insert i w) ∧ r'.Apart q'
      ∧ (∀ s, r.Valid s → q.Valid s → r'.Valid s ∧ q'.Valid s)
      ∧ ∀ x, r.Apart x → q.Apart x → r'.Apart x ∧ q'.Apart x := by
  obtain ⟨fd, hfd, hsocket⟩ := hr.socket i hi
  have hnone : q.file i = none := hrq.file_eq_none (hsocket ▸ Option.some_ne_none _)
  -- the giver has its other files, and no more
  have hless : ∀ j f, ((r.removeFd fd).setFile i none).file j = some f → r.file j = some f :=
    fun j f hf => (of_unsetFile hf).2
  -- the taker has this one besides its own
  have hmore : ∀ j f, ((q.setFile i (some ⟨.sockFS, .sockConf, fd⟩)).addFd fd).file j = some f →
      (j = i ∧ f = ⟨.sockFS, .sockConf, fd⟩) ∨ q.file j = some f := by
    intro j f hf
    by_cases hji : j = i
    · subst hji
      exact .inl ⟨rfl, Option.some.inj (hf.symm.trans (setFile_self ..))⟩
    · exact .inr ((setFile_of_ne q hji _).symm.trans hf)
  refine ⟨(r.removeFd fd).setFile i none,
    (q.setFile i (some ⟨.sockFS, .sockConf, fd⟩)).addFd fd,
    hr.release hsocket (.inr rfl), hq.grant hnone (hrq.fds fd hfd), ?_, ?_, ?_⟩
  · -- apart from each other: the socket is with one of them only
    refine ⟨fun j => ?_, ?_⟩
    · by_cases hji : j = i
      · subst hji
        exact .inl (setFile_self ..)
      · rcases hrq.files j with hj | hj
        · exact .inl ((setFile_of_ne _ hji _).trans hj)
        · exact .inr ((setFile_of_ne q hji _).trans hj)
    · rintro x ⟨hx, hne⟩ (rfl | hx')
      · exact hne rfl
      · exact hrq.fds x hx hx'
  · -- the object is the same, so both are as valid as before
    intro s hvr hvq
    refine ⟨⟨fun j f hf => hvr.files j f (hless j f hf), fun x hx => hvr.fds x hx.1⟩,
      fun j f hf => ?_, ?_⟩
    · rcases hmore j f hf with ⟨rfl, rfl⟩ | hf
      · exact hvr.files _ _ hsocket
      · exact hvq.files j f hf
    · rintro x (rfl | hx)
      · exact hvr.fds _ hfd
      · exact hvq.fds x hx
  · -- a third one was apart from both
    intro x hrx hqx
    refine ⟨⟨fun j => ?_, fun y hy => hrx.fds y hy.1⟩, fun j => ?_, ?_⟩
    · by_cases hji : j = i
      · subst hji
        exact .inl (setFile_self ..)
      · rw [setFile_of_ne _ hji]
        exact hrx.files j
    · by_cases hji : j = i
      · subst hji
        exact .inr (hrx.file_eq_none (hsocket ▸ Option.some_ne_none _))
      · have hj : ((q.setFile i (some ⟨.sockFS, .sockConf, fd⟩)).addFd fd).file j = q.file j :=
          setFile_of_ne q hji _
        rw [hj]
        exact hqx.files j
    · rintro y (rfl | hy)
      · exact hrx.fds _ hfd
      · exact hqx.fds y hy

/-- The functions of sockets.c, with the sockets that each thread has. -/
def sockets : Owned World FileOp FileOp.Ans Call (fun _ => Int) (Set Nat) Held where
  env := fileEnv
  body := Call.body
  allowed := allowed
  after := after
  gives v w := ∃ i ∈ v.1, w = (v.1 \ {i}, insert i v.2)
  valid w r := r.Valid w
  apart := Held.Apart
  apart_symm _ _ := Held.Apart.symm
  holds v r := r.Owns v
  during := Held.Keeps
  footprint := footprint
  inside _ _ _ _ _ _ := Threads.inside
  safe _ _ _ := body_safe
  handed := by
    rintro v w _ _ r q ⟨i, hi, heq⟩ hr hq hrq
    obtain ⟨rfl, rfl⟩ := Prod.mk.inj heq
    exact Threads.handed hi hr hq hrq

section Runs

variable {ι : Type} [DecidableEq ι]

/-- A state of the threads and the file table. -/
abbrev SockState (ι : Type) : Type :=
  Owned.State World FileOp FileOp.Ans Call (fun _ => Int) (Set Nat) ι

/-- What a thread does. -/
abbrev SockLabel (ι : Type) : Type := Owned.Label FileOp FileOp.Ans Call (fun _ => Int) ι

/-- No thread has a socket; there may be other files, and sockets of lwIP's own. -/
def start (w : World) : SockState ι := ⟨w, fun _ => ∅, fun _ => none⟩

/-- The thread is closing the socket. -/
def Closing (s : SockState ι) (t : ι) (i : Nat) : Prop :=
  ∃ c m, s.thread t = some ⟨c, m⟩ ∧ c.closes = some i

/-- The thread has the socket, and keeps it. -/
def Has (s : SockState ι) (t : ι) (i : Nat) : Prop := i ∈ s.view t ∧ ¬ Closing s t i

variable {w : World} {s s' : SockState ι} {ls : List (SockLabel ι)} {R : ι → Held}

omit [DecidableEq ι] in
/-- At the start nobody holds anything. -/
theorem start_sound (w : World) :
    sockets.Sound (start w : SockState ι) fun _ => ⟨fun _ => none, ∅⟩ where
  valid _ := ⟨fun _ _ h => absurd h nofun, fun _ h => h.elim⟩
  apart _ _ _ := ⟨fun _ => .inl rfl, fun _ h => h.elim⟩
  thread _ := ⟨fun _ h => absurd rfl h, fun _ h => h.elim, fun _ _ _ h => absurd h nofun⟩

omit [DecidableEq ι] in
/-- What a thread's resource says of its sockets. -/
theorem socket_of_sound (h : sockets.Sound s R) {t : ι} :
    ∃ r₀ : Held, r₀.Owns (s.view t) ∧ ∀ i, Has s t i →
      (R t).file i = r₀.file i ∧ ∀ f, (R t).file i = some f → f.fsPrivFd ∈ (R t).fds := by
  have ht := h.thread t
  cases hthread : s.thread t with
  | none =>
      rw [hthread] at ht
      have howns : (R t).Owns (s.view t) := ht
      exact ⟨R t, howns, fun i hi => howns.keeps (.socket 0 0 0) i hi.1 nofun⟩
  | some x =>
      obtain ⟨c, m⟩ := x
      rw [hthread] at ht
      obtain ⟨-, r₀, howns, hsafe⟩ := ht
      have hkeeps : Held.Keeps (s.view t) c r₀ (R t) := hsafe.keeps
      exact ⟨r₀, howns, fun i hi => hkeeps i hi.1 fun hc => hi.2 ⟨c, m, hthread, hc⟩⟩

/-- The socket of a file that a thread has. -/
theorem Held.Valid.socketFd {r : Held} (h : r.Valid w) {i : Nat} {fd : Int}
    (hi : r.file i = some ⟨.sockFS, .sockConf, fd⟩) : w.socketFd i = some fd :=
  socketFd_eq_some.mpr ⟨_, h.files i _ hi, rfl, rfl, rfl⟩

omit [DecidableEq ι] in
/-- A socket of a thread has a descriptor of the thread. -/
theorem socketFd_of_sound (h : sockets.Sound s R) {t : ι} {i : Nat} (hi : Has s t i) :
    ∃ fd ∈ (R t).fds, (R t).file i = some ⟨.sockFS, .sockConf, fd⟩
      ∧ s.object.socketFd i = some fd := by
  obtain ⟨r₀, howns, hkept⟩ := socket_of_sound h
  obtain ⟨hfile, hfds⟩ := hkept i hi
  obtain ⟨fd, -, hsocket⟩ := howns.socket i hi.1
  rw [hsocket] at hfile
  exact ⟨fd, hfds _ hfile, hfile, (h.valid t).socketFd hfile⟩

/-- At any time of a run: the sockets of the threads have open descriptors of their own,
and no assertion that a thread comes to is false. -/
structure SocketsApart (s : SockState ι) : Prop where
  opened : ∀ t i, Has s t i → ∃ fd ∈ s.object.opened, s.object.socketFd i = some fd
  unshared : ∀ t u i j fd, Has s t i → Has s u j → s.object.socketFd i = some fd →
    s.object.socketFd j = some fd → t = u ∧ i = j
  asserted : ∀ t c holds k, s.thread t = some ⟨c, .call (.P_ASSERT holds) k⟩ → holds = true

omit [DecidableEq ι] in
/-- What is held apart is apart. -/
theorem SocketsApart.of_sound (h : sockets.Sound s R) : SocketsApart s where
  opened t i hi := by
    obtain ⟨fd, hfd, -, hsocket⟩ := socketFd_of_sound h hi
    exact ⟨fd, (h.valid t).fds fd hfd, hsocket⟩
  unshared t u i j fd hi hj hfdi hfdj := by
    obtain ⟨x, hx, hfilei, hxi⟩ := socketFd_of_sound h hi
    obtain ⟨y, hy, hfilej, hyj⟩ := socketFd_of_sound h hj
    obtain rfl : x = fd := Option.some.inj (hxi.symm.trans hfdi)
    obtain rfl : y = x := Option.some.inj (hyj.symm.trans hfdj)
    -- threads are apart, so one descriptor has one owner
    have htu : t = u := by
      by_contra hne
      exact (h.apart t u hne).fds _ hx hy
    subst htu
    obtain ⟨r₀, howns, hkept⟩ := socket_of_sound h (t := t)
    refine ⟨rfl, howns.unshared i j ⟨.sockFS, .sockConf, y⟩ ?_ ?_⟩
    · rw [← (hkept i hi).1]
      exact hfilei
    · rw [← (hkept j hj).1]
      exact hfilej
  asserted t c holds k hthread := by
    have ht := h.thread t
    rw [hthread] at ht
    obtain ⟨-, r₀, -, -, hpre, -⟩ := ht
    exact hpre

/-- **No two sockets share a descriptor**, at any time of any run. -/
theorem sockets_apart (hrun : Run sockets.Step (start w) ls s) : SocketsApart s := by
  obtain ⟨R, hsound⟩ := Owned.sound_of_run ⟨_, start_sound w⟩ hrun
  exact .of_sound hsound

/-- Two free slots, one with an old file in it. -/
def sampleWorld : World :=
  ⟨[⟨false, ⟨.sockFS, .sockConf, 5⟩⟩, ⟨false, ⟨.other, .other, 0⟩⟩], []⟩

/-- Two threads open a socket each at the same time; the slot that is handed out first has
the number of the other one's new descriptor in it. -/
def sampleSteps : List (SockLabel Bool) :=
  [.invoke false (.socket 2 1 0), .perform false (.socket 2 1 0) .uosFileAlloc (some 0),
    .invoke true (.socket 2 1 0), .perform true (.socket 2 1 0) .uosFileAlloc (some 1),
    .perform true (.socket 2 1 0) (.lwip_socket 2 1 0) (5 : Int),
    .perform false (.socket 2 1 0) (.lwip_socket 2 1 0) (6 : Int),
    .perform true (.socket 2 1 0) (.setFs 1 .sockFS) (),
    .perform true (.socket 2 1 0) (.setCf 1 .sockConf) (),
    .perform true (.socket 2 1 0) (.setFsPrivFd 1 5) (), .respond true (.socket 2 1 0) (1 : Int),
    .perform false (.socket 2 1 0) (.setFs 0 .sockFS) (),
    .perform false (.socket 2 1 0) (.setCf 0 .sockConf) (),
    .perform false (.socket 2 1 0) (.setFsPrivFd 0 6) (), .respond false (.socket 2 1 0) (0 : Int)]

/-- Then each thread has a socket. -/
theorem sockets_apart_two : ∃ s : SockState Bool, Run sockets.Step (start sampleWorld) sampleSteps s
    ∧ Has s false 0 ∧ Has s true 1 ∧ SocketsApart s := by
  have hrun : ∃ s : SockState Bool, Run sockets.Step (start sampleWorld) sampleSteps s
      ∧ Has s false 0 ∧ Has s true 1 := by
    refine ⟨_, Run.cons (.invoke _ rfl nofun) <|
      Run.cons (.perform rfl (.inr ⟨0, rfl, ⟨_, rfl, rfl⟩, rfl⟩)) <|
      Run.cons (.invoke _ rfl nofun) <|
      Run.cons (.perform rfl (.inr ⟨1, rfl, ⟨_, rfl, rfl⟩, rfl⟩)) <|
      Run.cons (.perform rfl ⟨fun _ => List.not_mem_nil, rfl⟩) <|
      Run.cons (.perform rfl ⟨fun _ => by decide, rfl⟩) <|
      Run.cons (.perform rfl rfl) <| Run.cons (.perform rfl rfl) <|
      Run.cons (.perform rfl rfl) <| Run.cons (.respond rfl) <|
      Run.cons (.perform rfl rfl) <| Run.cons (.perform rfl rfl) <|
      Run.cons (.perform rfl rfl) <| Run.cons (.respond rfl) .nil, ⟨.inr rfl, ?_⟩, .inr rfl, ?_⟩
    · rintro ⟨c, m, hthread, -⟩
      exact absurd hthread nofun
    · rintro ⟨c, m, hthread, -⟩
      exact absurd hthread nofun
  obtain ⟨s, hrun, hhas⟩ := hrun
  exact ⟨s, hrun, hhas.1, hhas.2, sockets_apart hrun⟩

/-- lwIP is called as the thread asked: with the function and the arguments of its call, on
the descriptor that its socket has then. -/
def Reaches (w : World) : SockLabel ι → Prop
  | .perform _ c op _ =>
      op.OfLwip → ∃ fd, op = c.onLwip fd ∧ ∀ i ∈ c.slot, w.socketFd i = some fd
  | _ => True

/-- What a step leaves as it is, and what lwIP is called with in it. -/
structure DescriptorKept (s : SockState ι) (l : SockLabel ι) (s' : SockState ι) : Prop where
  kept : ∀ t i, Has s t i → s'.object.socketFd i = s.object.socketFd i
  reaches : Reaches s.object l

/-- An operation of lwIP needs to be asked for. -/
theorem Held.Needs.asks {c : Call} {r : Held} {op : FileOp} (h : r.Needs c op) (hop : op.OfLwip) :
    r.Asks c op := by
  cases op with
  | lwip_socket | lwip_accept | lwip_close | lwip => exact h
  | _ => exact hop.elim

/-- A step keeps the descriptors of all sockets, and lwIP is called as asked. -/
theorem DescriptorKept.of_sound {l : SockLabel ι} (h : sockets.Sound s R)
    (hs : sockets.Step s l s') : DescriptorKept s l s' := by
  cases hs with
  | invoke c hidle hallowed => exact ⟨fun _ _ _ => rfl, trivial⟩
  | respond hthread => exact ⟨fun _ _ _ => rfl, trivial⟩
  | give hij hi hj hgives => exact ⟨fun _ _ _ => rfl, trivial⟩
  | @perform u c op k ans o hthread hop =>
      obtain ⟨hneeds, r, -, hsound, r₀, hbefore, hafter⟩ := h.perform hthread hop
      refine ⟨fun t i hi => ?_, ?_⟩
      · -- the file is the same before and after
        obtain ⟨fd, -, hfile, hsocket⟩ := socketFd_of_sound h hi
        have hvalid : (Function.update R u r t).Valid o := hsound.valid t
        have hsame : (Function.update R u r t).file i = (R t).file i := by
          by_cases htu : t = u
          · subst htu
            have hopen : c.closes ≠ some i := fun hc => hi.2 ⟨c, _, hthread, hc⟩
            rw [Function.update_self]
            exact (hafter i hi.1 hopen).1.trans (hbefore i hi.1 hopen).1.symm
          · rw [Function.update_of_ne htu]
        rw [hfile] at hsame
        show o.socketFd i = _
        rw [hsocket, hvalid.socketFd hsame]
      · intro hlwip
        obtain ⟨fd, hcall, hsocket⟩ := Held.Needs.asks hneeds hlwip
        exact ⟨fd, hcall, fun i hi => (h.valid u).socketFd (hsocket i hi).2⟩

/-- **A socket has one descriptor until it is closed**, and the calls for it reach that one. -/
theorem descriptor_kept (w : World) (ls : List (SockLabel ι)) :
    EachStep sockets.Step (start w) DescriptorKept ls := by
  intro pre l post s s' hls hrun hs
  obtain ⟨R, hsound⟩ := Owned.sound_of_run ⟨_, start_sound w⟩ hrun
  exact .of_sound hsound hs

end Runs

end PicoosLwip.Sockets.Threads
