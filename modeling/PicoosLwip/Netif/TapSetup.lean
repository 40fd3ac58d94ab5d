/-
  PicoosLwip.Netif.TapSetup — how tapif.c sets the interface up.

  `tapIfInit` is a `Program` over the calls that it makes of the operating system and
  of the kernel.  Between any two of them something else may happen: a frame comes in,
  a signal arrives, and, once its thread has been created, the thread runs.  So the
  order of the calls counts.  Here it is stated as stages: which call is made in which
  stage, and what is there then.

  Main results:
    * `ifconfig_fits`   — the command line fits its buffer, for any addresses;
    * `keeps_tapIfInit` — the calls are made in order: the handler before the signals,
                          the semaphore before the thread, and both before `pollSema`.
-/
import PicoosLwip.Framework.Realize
import Mathlib.Data.List.Basic

namespace PicoosLwip.Netif

open PicoosLwip.Framework

/-! ## §1. The interface. -/

/-- The bytes that lwIP's `ip4_addr1` to `ip4_addr4` return. -/
structure Ip4 where
  ip4_addr1 : UInt8
  ip4_addr2 : UInt8
  ip4_addr3 : UInt8
  ip4_addr4 : UInt8
  deriving DecidableEq

/-- The flags that the drivers set. -/
inductive NetifFlag where
  | NETIF_FLAG_BROADCAST
  | NETIF_FLAG_ETHARP
  | NETIF_FLAG_LINK_UP
  deriving DecidableEq

/-- What the drivers read and write of `struct netif`; `hwaddr_len` is the length of
`hwaddr`. -/
structure Interface where
  hwaddr : List UInt8
  mtu : UInt16
  flags : List NetifFlag
  name : List Char
  gw : Ip4
  netmask : Ip4
  deriving DecidableEq

/-- What the two functions `tapIfInit` and `cs8900aIfInit` return. -/
inductive InitErr where
  | ERR_OK
  | ERR_MEM
  deriving DecidableEq

namespace Tapif

/-! ## §2. The command. -/

/-- `%d` of a byte. -/
def decimal (b : UInt8) : List Char := Nat.toDigits 10 b.toNat

/-- `%d.%d.%d.%d` -/
def dotted (ip : Ip4) : List Char :=
  decimal ip.ip4_addr1 ++ '.' :: (decimal ip.ip4_addr2 ++ '.' ::
    (decimal ip.ip4_addr3 ++ '.' :: decimal ip.ip4_addr4))

/-- What the two calls of `sprintf` leave in `ifconfig`. -/
def ifconfig (gw netmask : Ip4) : List Char :=
  "ifconfig tap0 ".toList ++ dotted gw ++ " netmask ".toList ++ dotted netmask ++ " up".toList

/-- `char ifconfig[80];` -/
def ifconfigSize : Nat := 80

/-- Three digits at most. -/
theorem decimal_length (b : UInt8) : (decimal b).length ≤ 3 :=
  (Nat.length_toDigits_le_iff (by decide) (by decide)).mpr (Nat.lt_trans b.toNat_lt (by decide))

/-- Fifteen characters at most. -/
theorem dotted_length (ip : Ip4) : (dotted ip).length ≤ 15 := by
  have h₁ := decimal_length ip.ip4_addr1
  have h₂ := decimal_length ip.ip4_addr2
  have h₃ := decimal_length ip.ip4_addr3
  have h₄ := decimal_length ip.ip4_addr4
  unfold dotted
  simp only [List.length_append, List.length_cons]
  omega

/-- **The command fits**, with the NUL behind it. -/
theorem ifconfig_fits (gw netmask : Ip4) : (ifconfig gw netmask).length + 1 ≤ ifconfigSize := by
  have hgw := dotted_length gw
  have hnetmask := dotted_length netmask
  have hconst : "ifconfig tap0 ".toList.length + " netmask ".toList.length + " up".toList.length
      ≤ 30 := by decide
  unfold ifconfig ifconfigSize
  simp only [List.length_append]
  omega

/-- The number ends where the first other character is. -/
theorem takeWhile_decimal {c : Char} (hc : c.isDigit = false) (b : UInt8) (cs : List Char) :
    (decimal b ++ c :: cs).takeWhile Char.isDigit = decimal b := by
  have hdigits : ∀ d ∈ decimal b, d.isDigit := fun d hd =>
    Nat.isDigit_of_mem_toDigits (by decide) (by decide) hd
  rw [List.takeWhile_append_of_pos hdigits, List.takeWhile_cons_of_neg (by simp [hc]),
    List.append_nil]

/-- A byte can be read off its digits. -/
theorem decimal_inj {b b' : UInt8} (h : decimal b = decimal b') : b = b' := by
  apply UInt8.toNat_inj.mp
  rw [← Nat.ofDigitChars_ten_toDigits (n := b.toNat),
    ← Nat.ofDigitChars_ten_toDigits (n := b'.toNat)]
  exact congrArg (Nat.ofDigitChars 10 · 0) h

/-- A byte up to the next character that is no digit. -/
theorem decimal_cons_inj {c : Char} (hc : c.isDigit = false) {b b' : UInt8} {cs cs' : List Char}
    (h : decimal b ++ c :: cs = decimal b' ++ c :: cs') : b = b' ∧ cs = cs' := by
  have hdecimal := congrArg (List.takeWhile Char.isDigit) h
  rw [takeWhile_decimal hc, takeWhile_decimal hc] at hdecimal
  rw [hdecimal] at h
  exact ⟨decimal_inj hdecimal, (List.cons.inj (List.append_cancel_left h)).2⟩

/-- An address up to the next character that is no digit. -/
theorem dotted_cons_inj {c : Char} (hc : c.isDigit = false) {ip ip' : Ip4} {cs cs' : List Char}
    (h : dotted ip ++ c :: cs = dotted ip' ++ c :: cs') : ip = ip' ∧ cs = cs' := by
  have hdot : '.'.isDigit = false := by decide
  unfold dotted at h
  simp only [List.append_assoc, List.cons_append] at h
  obtain ⟨h₁, hrest₁⟩ := decimal_cons_inj hdot h
  obtain ⟨h₂, hrest₂⟩ := decimal_cons_inj hdot hrest₁
  obtain ⟨h₃, hrest₃⟩ := decimal_cons_inj hdot hrest₂
  obtain ⟨h₄, hrest₄⟩ := decimal_cons_inj hc hrest₃
  obtain ⟨a₁, a₂, a₃, a₄⟩ := ip
  obtain ⟨b₁, b₂, b₃, b₄⟩ := ip'
  exact ⟨by simp_all, hrest₄⟩

/-- **The command says which addresses are meant.** -/
theorem ifconfig_inj {gw gw' netmask netmask' : Ip4}
    (h : ifconfig gw netmask = ifconfig gw' netmask') : gw = gw' ∧ netmask = netmask' := by
  unfold ifconfig at h
  simp only [List.append_assoc, List.append_cancel_left_eq] at h
  have hspace : ' '.isDigit = false := by decide
  rw [show " netmask ".toList = ' ' :: "netmask ".toList by decide,
    show " up".toList = ' ' :: "up".toList by decide] at h
  obtain ⟨hgw, hrest⟩ := dotted_cons_inj hspace h
  exact ⟨hgw, (dotted_cons_inj hspace (List.append_cancel_left hrest)).1⟩

/-! ## §3. The calls. -/

/-- `read` does not wait. -/
def O_NONBLOCK : UInt32 := 0x800
/-- The device raises `SIGIO`. -/
def O_ASYNC : UInt32 := 0x2000

/-- What `tapIfInit` asks of kernel and operating system. -/
inductive SetupOp where
  | mem_malloc
  /-- `open("/dev/tap0", O_RDWR)` -/
  | open_tap0
  | system (command : List Char)
  /-- `sigaction(SIGIO, &sig, NULL)`, where `sig` has `ioReady` for a handler. -/
  | sigaction
  | fcntl_F_SETOWN
  | fcntl_F_GETFL
  | fcntl_F_SETFL (flags : UInt32)
  /-- `tapIf->sema = nosSemaCreate(count, 0, "tap")` -/
  | nosSemaCreate (count : Nat)
  /-- `tapIf->poll = nosTaskCreate(tapThread, netif, 10, 300, "cs")` -/
  | nosTaskCreate
  /-- `pollSema = tapIf->sema` -/
  | setPollSema

/-- What comes back, as far as it is looked at; `mem_malloc` may return `NULL`. -/
def SetupOp.Ans : SetupOp → Type
  | .mem_malloc => Bool
  | .open_tap0 => Int
  | .fcntl_F_GETFL => UInt32
  | _ => Unit

/-- A program of such calls. -/
abbrev Setup (α : Type) : Type := Program SetupOp SetupOp.Ans α

/-- Memory for the interface's state, if there is any. -/
def mem_malloc : Setup Bool := Program.perform SetupOp.mem_malloc

/-- A descriptor, or a negative number. -/
def open_tap0 : Setup Int := Program.perform SetupOp.open_tap0

/-- Run a command. -/
def system (command : List Char) : Setup Unit := Program.perform (SetupOp.system command)

/-- From now on there is a handler. -/
def sigaction : Setup Unit := Program.perform SetupOp.sigaction

/-- The process gets the signals. -/
def fcntl_F_SETOWN : Setup Unit := Program.perform SetupOp.fcntl_F_SETOWN

/-- The flags of the descriptor. -/
def fcntl_F_GETFL : Setup UInt32 := Program.perform SetupOp.fcntl_F_GETFL

/-- Set them. -/
def fcntl_F_SETFL (flags : UInt32) : Setup Unit := Program.perform (SetupOp.fcntl_F_SETFL flags)

/-- `tapIf->sema`, with a count. -/
def nosSemaCreate (count : Nat) : Setup Unit := Program.perform (SetupOp.nosSemaCreate count)

/-- The receiving thread is started. -/
def nosTaskCreate : Setup Unit := Program.perform SetupOp.nosTaskCreate

/-- `pollSema = tapIf->sema` -/
def setPollSema : Setup Unit := Program.perform SetupOp.setPollSema

/-- `ipv6` is `LWIP_IPV6`. -/
def enableIpv6 (ipv6 : Bool) : Setup Unit :=
  if ipv6 then system "ifconfig tap0 inet6 -ifdisabled".toList else pure ()

/-- `ioReady` for `SIGIO`, and the device to raise it. -/
def raiseSigio : Setup Unit := do
  sigaction
  fcntl_F_SETOWN
  let flags ← fcntl_F_GETFL
  fcntl_F_SETFL (flags ||| O_ASYNC ||| O_NONBLOCK)

/-- No result where the assertion on the device fails. -/
def lowLevelInit (ipv6 : Bool) (netif : Interface) : Setup (Option Interface) := do
  let netif := { netif with
    hwaddr := [0x0, 0xbd, 0x3, 0x4, 0x5, 0x6]
    mtu := 1500
    flags := [.NETIF_FLAG_BROADCAST, .NETIF_FLAG_ETHARP, .NETIF_FLAG_LINK_UP] }
  if (← open_tap0) = -1 then
    pure none
  else
    system (ifconfig netif.gw netif.netmask)
    enableIpv6 ipv6
    raiseSigio
    pure (some netif)

/-- Memory, the name of the interface, and the device. -/
def tapIfInit (ipv6 : Bool) (netif : Interface) : Setup (Option (InitErr × Interface)) := do
  if ← mem_malloc then
    let netif := { netif with name := ['t', 'a'] }
    match ← lowLevelInit ipv6 netif with
    | none => pure none
    | some netif => do
        nosSemaCreate 1
        nosTaskCreate
        -- only now does `ioReadyContext` know the semaphore
        setPollSema
        pure (some (.ERR_OK, netif))
  else
    pure (some (.ERR_MEM, netif))

/-! ## §4. The order of the calls. -/

/-- What is there: the handler of `SIGIO`; `O_ASYNC`, with which the device raises it;
the semaphore; the thread; and the semaphore in `pollSema`. -/
structure Stage where
  handler : Bool
  async : Bool
  sema : Bool
  thread : Bool
  pollSema : Bool
  deriving DecidableEq

/-- In which stage a call is in order. -/
def setupModes : Modes SetupOp Stage where
  allowed m op :=
    match op with
    -- SIGIO without a handler would end the process
    | .fcntl_F_SETFL flags => m.handler ∧ flags &&& O_ASYNC ≠ 0
    | .nosSemaCreate count => ¬ m.sema ∧ 0 < count
    -- the thread waits on the semaphore
    | .nosTaskCreate => m.async ∧ m.sema
    | .setPollSema => m.thread
    | _ => True
  next m op :=
    match op with
    | .sigaction => { m with handler := true }
    | .fcntl_F_SETFL flags => { m with async := flags &&& O_ASYNC != 0 }
    | .nosSemaCreate _ => { m with sema := true }
    | .nosTaskCreate => { m with thread := true }
    | .setPollSema => { m with pollSema := true }
    | _ => m

/-- Before `tapIfInit`. -/
def Stage.start : Stage := ⟨false, false, false, false, false⟩

/-- After `lowLevelInit`. -/
def Stage.listening : Stage := ⟨true, true, false, false, false⟩

/-- `O_ASYNC` is among the flags that are set. -/
theorem async_flag (flags : UInt32) : (flags ||| O_ASYNC ||| O_NONBLOCK) &&& O_ASYNC = O_ASYNC := by
  have hapart : O_NONBLOCK.toBitVec &&& O_ASYNC.toBitVec = 0 := by decide
  apply UInt32.toBitVec_inj.mp
  simp only [UInt32.toBitVec_and, UInt32.toBitVec_or]
  rw [BitVec.and_or_distrib_right, BitVec.and_or_distrib_right, hapart, BitVec.and_self]
  ext i hi
  simp only [BitVec.getElem_or, BitVec.getElem_and, BitVec.ofNat_eq_ofNat, BitVec.getElem_zero]
  cases flags.toBitVec[i] <;> simp

section Keeps

variable {α : Type} {Q : Stage → Prop}

/-- The handler is there before any signal. -/
theorem keeps_raiseSigio : Program.Keeps setupModes .start raiseSigio (· = .listening) := by
  refine Program.Keeps.bind (R := (· = ⟨true, false, false, false, false⟩))
    (Program.Keeps.perform trivial rfl) ?_
  rintro _ _ rfl
  refine ⟨trivial, fun _ => ⟨trivial, fun (flags : UInt32) => ⟨⟨rfl, ?_⟩, fun _ => ?_⟩⟩⟩
  · rw [async_flag]
    decide
  · show (⟨true, (flags ||| O_ASYNC ||| O_NONBLOCK) &&& O_ASYNC != 0, false, false, false⟩ : Stage)
      = .listening
    rw [async_flag]
    rfl

/-- `lowLevelInit` and what follows it: with the device, in the stage that it leads to. -/
theorem keeps_lowLevelInit_bind {ipv6 : Bool} {netif : Interface}
    {f : Option Interface → Setup α} (hnone : Program.Keeps setupModes .start (f none) Q)
    (hsome : ∀ netif, Program.Keeps setupModes .listening (f (some netif)) Q) :
    Program.Keeps setupModes .start (lowLevelInit ipv6 netif >>= f) Q := by
  refine ⟨trivial, fun (fd : Int) => ?_⟩
  by_cases hfail : fd = -1
  · show Program.Keeps setupModes .start ((if fd = -1 then _ else _) >>= f) Q
    rw [if_pos hfail]
    exact hnone
  · show Program.Keeps setupModes .start ((if fd = -1 then _ else _) >>= f) Q
    rw [if_neg hfail]
    refine ⟨trivial, fun _ => ?_⟩
    have hlisten : ∀ netif', Program.Keeps setupModes .start
        (raiseSigio >>= fun _ => f (some netif')) Q := by
      intro netif'
      refine Program.Keeps.bind keeps_raiseSigio ?_
      rintro _ _ rfl
      exact hsome netif'
    cases ipv6 with
    | false => exact hlisten _
    | true => exact ⟨trivial, fun _ => hlisten _⟩

end Keeps

/-- **`tapIfInit` makes its calls in order.** -/
theorem keeps_tapIfInit (ipv6 : Bool) (netif : Interface) :
    Program.Keeps setupModes .start (tapIfInit ipv6 netif) fun _ => True := by
  refine Program.Keeps.bind (R := (· = .start)) (Program.Keeps.perform trivial rfl) ?_
  rintro ok _ rfl
  cases ok with
  | false => exact Program.Keeps.ret trivial
  | true =>
      refine keeps_lowLevelInit_bind (Program.Keeps.ret trivial) fun netif => ?_
      refine Program.Keeps.bind (R := (· = ⟨true, true, true, false, false⟩))
        (Program.Keeps.perform ⟨by decide, by decide⟩ rfl) ?_
      rintro _ _ rfl
      refine Program.Keeps.bind (R := (· = ⟨true, true, true, true, false⟩))
        (Program.Keeps.perform ⟨rfl, rfl⟩ rfl) ?_
      rintro _ _ rfl
      exact Program.Keeps.bind (R := fun _ => True) (Program.Keeps.perform rfl trivial)
        fun _ _ _ => Program.Keeps.ret trivial

/-! ## §5. What the stages have in common. -/

/-- The thread is there after the signals and the semaphore, `pollSema` after the thread. -/
structure Stage.Sound (m : Stage) : Prop where
  async : m.thread → m.async
  sema : m.thread → m.sema
  thread : m.pollSema → m.thread

/-- Nothing is there yet. -/
theorem Stage.Sound.start : Stage.start.Sound := ⟨nofun, nofun, nofun⟩

/-- A call in order keeps what the stages promise. -/
theorem Stage.Sound.next {m : Stage} {op : SetupOp} (h : m.Sound)
    (hallowed : setupModes.allowed m op) : (setupModes.next m op).Sound := by
  cases op with
  | fcntl_F_SETFL flags => exact ⟨fun _ => bne_iff_ne.mpr hallowed.2, h.sema, h.thread⟩
  | nosSemaCreate count => exact ⟨h.async, fun _ => rfl, h.thread⟩
  | nosTaskCreate => exact ⟨fun _ => hallowed.1, fun _ => hallowed.2, fun _ => rfl⟩
  | setPollSema => exact ⟨h.async, h.sema, fun _ => hallowed⟩
  | _ => exact ⟨h.async, h.sema, h.thread⟩

/-- `pollSema` stays set. -/
theorem Stage.pollSema_next {m : Stage} (h : m.pollSema) (op : SetupOp) :
    (setupModes.next m op).pollSema := by
  cases op with
  | setPollSema => rfl
  | _ => exact h

/-- The count of the semaphore after a call. -/
def SetupOp.count : SetupOp → Nat → Nat
  | .nosSemaCreate count, _ => count
  | _, n => n

/-- The semaphore is created with a token. -/
theorem SetupOp.count_pos {m : Stage} {op : SetupOp} {n : Nat} (h : m.sema → 0 < n)
    (hallowed : setupModes.allowed m op) : (setupModes.next m op).sema → 0 < op.count n := by
  cases op with
  | nosSemaCreate count => exact fun _ => hallowed.2
  | _ => exact h

/-- It is created once. -/
theorem SetupOp.count_of_sema {m : Stage} {op : SetupOp} (h : m.sema)
    (hallowed : setupModes.allowed m op) (n : Nat) : op.count n = n := by
  cases op with
  | nosSemaCreate count => exact absurd h hallowed.1
  | _ => rfl

end Tapif

end PicoosLwip.Netif
