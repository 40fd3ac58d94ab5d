/-
  PicoosLwip.Sockets.Aliasing — socket slots and lwIP descriptors stay in step.

  A slot of the file table should be the one holder of its descriptor, and the
  descriptor live in lwIP: `Handles`.  `socket`, `accept` and `sockClose` are
  its operations.  `closesocket` is not: it closes the descriptor and leaves
  the slot allocated, with the number that lwIP then gives to the next socket.
-/
import PicoosLwip.Sockets.Steps
import PicoosLwip.Framework.Handles

namespace PicoosLwip.Sockets

open PicoosLwip.Framework

/-- Every socket slot has a descriptor of its own that is open in lwIP. -/
structure SlotsSound (w : World) : Prop where
  opened : ∀ i fd, w.socketFd i = some fd → fd ∈ w.opened
  unshared : ∀ i j fd, w.socketFd i = some fd → w.socketFd j = some fd → i = j

/-- The two tables are those of `h`. -/
structure Represents (w : World) (h : Handles Nat Int) : Prop where
  holds : ∀ i, w.socketFd i = h.holds i
  live : ∀ fd, fd ∈ w.opened ↔ h.live fd

/-- Where the table represents handles, slots are sound. -/
theorem Represents.sound {w : World} {h : Handles Nat Int} (hr : Represents w h) :
    SlotsSound w where
  opened i fd hfd := (hr.live fd).mpr (h.live_of_holds ((hr.holds i).symm.trans hfd))
  unshared i j _ hi hj :=
    h.holds_inj ((hr.holds i).symm.trans hi) ((hr.holds j).symm.trans hj)

/-- No slot is a socket yet; other files and lwIP's own sockets may be open. -/
def NoSockets (w : World) : Prop := ∀ i, w.socketFd i = none

/-- At the start nothing is held. -/
theorem NoSockets.represents {w : World} (hw : NoSockets w) :
    Represents w (Handles.idle fun fd => fd ∈ w.opened) :=
  ⟨hw, fun _ => Iff.rfl⟩

/-- `closesocket` is not called where it closes something. -/
def ClosesBySlot (w : World) : Call → Prop
  | .closesocket s _ => ∀ fd, netLwIP_FD w s = some fd → fd ∉ w.opened
  | _ => True

/-- **One call is one operation of `Handles`**, unless `closesocket` closes a
descriptor. -/
theorem Represents.step {w w' : World} {h : Handles Nat Int} {l : Call × Int}
    (hr : Represents w h) (hstep : CallStep w l w') (hsafe : ClosesBySlot w l.1) :
    ∃ h', Represents w' h' := by
  cases step_cases hstep with
  | failed c => exact ⟨h, hr⟩
  | opens c i sock hfree hfresh hsock =>
      -- lwIP hands out a descriptor that is not open
      have hdead : ¬ h.live sock := fun hl => hfresh ((hr.live sock).mpr hl)
      refine ⟨h.acquire i sock hdead, ?_, ?_⟩
      · intro j
        rw [socketFd_grant hfree, hr.holds, Handles.acquire_holds]
      · intro fd
        show fd ∈ sock :: w.opened ↔ fd = sock ∨ h.live fd
        rw [List.mem_cons, hr.live]
  | closes i fd hfd hopen =>
      have hheld : h.holds i = some fd := (hr.holds i).symm.trans hfd
      refine ⟨h.release i fd hheld, ?_, ?_⟩
      · intro j
        rw [socketFd_free, socketFd_closeFd, hr.holds, Handles.release_holds]
      · intro fd'
        show fd' ∈ w.opened.filter _ ↔ fd' ≠ fd ∧ h.live fd'
        rw [List.mem_filter, hr.live]
        simp [and_comm]
  | abandons i ok fd hfd hfail =>
      -- a descriptor without a slot: nobody holds it any more
      refine ⟨h.drop i, ?_, hr.live⟩
      intro j
      rw [socketFd_free, hr.holds, Handles.drop_holds]
  | closesFd s fd hfd hopen => exact absurd hopen (hsafe fd hfd)

/-- A call that closes sockets by their slots. -/
def BySlotStep (w : World) (l : Call × Int) (w' : World) : Prop :=
  CallStep w l w' ∧ ClosesBySlot w l.1

/-- **Socket slots never alias and never dangle**, in any run of calls that
closes sockets by their slots. -/
theorem slots_sound {w₀ w : World} {ls : List (Call × Int)} (hinit : NoSockets w₀)
    (hrun : Run BySlotStep w₀ ls w) : SlotsSound w := by
  have hrep : ∃ h, Represents w h := by
    apply hrun.invariant fun w => ∃ h, Represents w h
    · exact ⟨_, hinit.represents⟩
    · rintro w l w' ⟨h, hr⟩ ⟨hstep, hsafe⟩
      exact hr.step hstep hsafe
  obtain ⟨h, hr⟩ := hrep
  exact hr.sound

/-! ## §1. Sample runs. -/

/-- A free slot as boot leaves it. -/
def freshSlot : Slot := ⟨false, ⟨.other, .other, 0⟩⟩

/-- Two free slots, no socket in lwIP. -/
def sampleWorld : World := ⟨[freshSlot, freshSlot], []⟩

/-- No slot is a socket. -/
theorem sampleWorld_noSockets : NoSockets sampleWorld := by
  intro i
  match i with
  | 0 => rfl
  | 1 => rfl
  | _ + 2 => rfl

/-- A slot allocated to the socket with descriptor `fd`. -/
def openSlot (fd : Int) : Slot := ⟨true, ⟨.sockFS, .sockConf, fd⟩⟩

/-- A `socket` call for which lwIP has a descriptor. -/
theorem socket_step {w : World} {i : Nat} {sock : Int} (hfree : w.FreeSlot i)
    (hfresh : sock ∉ w.opened) :
    CallStep w (.socket (some i) sock, (socket (some i) sock w).1)
      (socket (some i) sock w).2 := by
  refine ⟨⟨?_, fun _ => hfresh⟩, rfl⟩
  intro j hj
  obtain rfl := Option.some.inj hj
  exact hfree

/-- The first socket of the sample runs. -/
theorem first_socket :
    CallStep sampleWorld (.socket (some 0) 0, 0) ⟨[openSlot 0, freshSlot], [0]⟩ :=
  socket_step ⟨freshSlot, rfl, rfl⟩ (by decide)

/-- Two sockets, and a close of the first by its slot. -/
theorem slots_sound_two_sockets :
    ∃ ls w, Run BySlotStep sampleWorld ls w
      ∧ ls.map (fun l => l.1) = [.socket (some 0) 0, .socket (some 1) 1, .close 0 true]
      ∧ w.socketFd 1 = some 1 ∧ w.opened = [1] ∧ SlotsSound w := by
  have hsecond : CallStep ⟨[openSlot 0, freshSlot], [0]⟩ (.socket (some 1) 1, 1)
      ⟨[openSlot 0, openSlot 1], [1, 0]⟩ :=
    socket_step ⟨freshSlot, rfl, rfl⟩ (by decide)
  have hclose : CallStep ⟨[openSlot 0, openSlot 1], [1, 0]⟩ (.close 0 true, 0)
      ⟨[{ openSlot 0 with allocated := false }, openSlot 1], [1]⟩ :=
    ⟨⟨openSlot 0, rfl, rfl, rfl⟩, by decide⟩
  have hrun : Run BySlotStep sampleWorld _ _ :=
    Run.cons ⟨first_socket, trivial⟩ (Run.cons ⟨hsecond, trivial⟩ (Run.single ⟨hclose, trivial⟩))
  exact ⟨_, _, hrun, rfl, rfl, rfl, slots_sound sampleWorld_noSockets hrun⟩

/-- `closesocket` on a socket, and the next `socket`: two slots with one
descriptor. -/
theorem closesocket_aliases :
    ∃ ls w, Run CallStep sampleWorld ls w
      ∧ ls.map (fun l => l.1) = [.socket (some 0) 0, .closesocket 0 true, .socket (some 1) 0]
      ∧ w.socketFd 0 = some 0 ∧ w.socketFd 1 = some 0 ∧ ¬ SlotsSound w := by
  have hclose : CallStep ⟨[openSlot 0, freshSlot], [0]⟩ (.closesocket 0 true, 0)
      ⟨[openSlot 0, freshSlot], []⟩ := ⟨trivial, by decide⟩
  have hreuse : CallStep ⟨[openSlot 0, freshSlot], []⟩ (.socket (some 1) 0, 1)
      ⟨[openSlot 0, openSlot 0], [0]⟩ :=
    socket_step ⟨freshSlot, rfl, rfl⟩ (by decide)
  refine ⟨_, _, Run.cons first_socket (Run.cons hclose (Run.single hreuse)), rfl, rfl, rfl, ?_⟩
  intro hsound
  exact absurd (hsound.unshared 0 1 0 rfl rfl) (by decide)

end PicoosLwip.Sockets
