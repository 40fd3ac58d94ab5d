/-
  PicoosLwip.Sockets.Steps — what one socket call can do to the two tables.

  `StepCase` lists it: nothing, a socket opened in a free slot, a slot closed
  with its descriptor, a slot given up with its descriptor still open (only
  when `lwip_close` fails), or, for `closesocket`, a descriptor closed and its
  slot left as it is.  `step_cases` says that these are all.
-/
import PicoosLwip.Sockets.FileTable

namespace PicoosLwip.Sockets

/-! ## §1. Slots read back. -/

/-- The descriptor in a slot that is allocated to a socket. -/
def Slot.socketFd (sl : Slot) : Option Int :=
  if sl.allocated = true ∧ sl.file.cf = .sockConf then some sl.file.fsPrivFd else none

/-- The descriptor of the socket in slot `i`. -/
def World.socketFd (w : World) (i : Nat) : Option Int := w.slots[i]?.bind Slot.socketFd

/-- What makes a slot a socket. -/
theorem socketFd_eq_some {w : World} {i : Nat} {fd : Int} :
    w.socketFd i = some fd ↔ ∃ sl, w.slots[i]? = some sl ∧ sl.allocated = true
      ∧ sl.file.cf = .sockConf ∧ sl.file.fsPrivFd = fd := by
  unfold World.socketFd
  rw [Option.bind_eq_some_iff]
  constructor
  · rintro ⟨sl, hsl, hfd⟩
    unfold Slot.socketFd at hfd
    split at hfd
    next hc => exact ⟨sl, hsl, hc.1, hc.2, Option.some.inj hfd⟩
    next => exact absurd hfd (by simp)
  · rintro ⟨sl, hsl, halloc, hcf, rfl⟩
    exact ⟨sl, hsl, if_pos ⟨halloc, hcf⟩⟩

/-- A socket has a descriptor. -/
theorem socketSlot_iff {w : World} {i : Nat} : w.SocketSlot i ↔ ∃ fd, w.socketFd i = some fd := by
  constructor
  · rintro ⟨sl, hsl, halloc, hcf⟩
    exact ⟨_, socketFd_eq_some.mpr ⟨sl, hsl, halloc, hcf, rfl⟩⟩
  · rintro ⟨fd, hfd⟩
    obtain ⟨sl, hsl, halloc, hcf, -⟩ := socketFd_eq_some.mp hfd
    exact ⟨sl, hsl, halloc, hcf⟩

/-- One slot changes. -/
theorem socketFd_modify (w : World) (i j : Nat) (f : Slot → Slot) (opened : List Int) :
    World.socketFd ⟨w.slots.modify i f, opened⟩ j
      = if j = i then w.slots[i]?.bind fun sl => (f sl).socketFd else w.socketFd j := by
  unfold World.socketFd
  rw [List.getElem?_modify]
  by_cases hji : j = i
  · subst hji
    cases w.slots[j]? <;> simp
  · have hij : ¬ i = j := fun h => hji h.symm
    cases w.slots[j]? <;> simp [hji, hij]

/-- The world after a socket is opened in slot `i`. -/
def World.grant (w : World) (i : Nat) (sock : Int) : World where
  slots := w.slots.modify i fun _ => ⟨true, ⟨.sockFS, .sockConf, sock⟩⟩
  opened := sock :: w.opened

/-- The world after lwIP has closed `fd`. -/
def World.closeFd (w : World) (fd : Int) : World :=
  { w with opened := w.opened.filter fun fd' => fd' ≠ fd }

/-- A new socket, and the others as they were. -/
theorem socketFd_grant {w : World} {i : Nat} (hfree : w.FreeSlot i) (sock : Int) (j : Nat) :
    (w.grant i sock).socketFd j = if j = i then some sock else w.socketFd j := by
  obtain ⟨sl, hsl, -⟩ := hfree
  unfold World.grant
  rw [socketFd_modify, hsl]
  rfl

/-- A slot that is given back is no socket. -/
theorem socketFd_free (w : World) (i j : Nat) :
    (uosFileFree i w).socketFd j = if j = i then none else w.socketFd j := by
  unfold uosFileFree
  rw [socketFd_modify]
  cases w.slots[i]? <;> rfl

@[simp] theorem socketFd_closeFd (w : World) (fd : Int) (j : Nat) :
    (w.closeFd fd).socketFd j = w.socketFd j := rfl

/-! ## §2. Opening. -/

/-- A free slot that is handed out and freed again is as before. -/
theorem free_alloc {w : World} {i : Nat} (hfree : w.FreeSlot i) :
    uosFileFree i (uosFileAlloc i w) = w := by
  obtain ⟨sl, hsl, halloc⟩ := hfree
  unfold uosFileFree uosFileAlloc
  show World.mk ((w.slots.modify i _).modify i _) w.opened = w
  rw [List.modify_modify_eq]
  have hsame : (w.slots.modify i ((fun sl : Slot => { sl with allocated := false })
      ∘ fun sl => { sl with allocated := true })) = w.slots := by
    apply List.ext_getElem?
    intro j
    rw [List.getElem?_modify]
    by_cases hij : i = j
    · -- the entry was free before
      subst hij
      rw [hsl]
      simp [← halloc]
    · cases w.slots[j]? <;> simp [hij]
  exact congrArg (fun slots => World.mk slots w.opened) hsame

/-- **`socket` and `accept` with a slot**: both tables as before, or a socket. -/
theorem finishOpen_eq {w : World} {i : Nat} (hfree : w.FreeSlot i) (sock : Int) :
    finishOpen i sock (lwipOpen sock (uosFileAlloc i w))
      = if sock = -1 then (-1, w) else ((i : Int), w.grant i sock) := by
  unfold finishOpen lwipOpen
  by_cases hfail : sock = -1
  · rw [if_pos hfail, if_pos hfail, if_pos hfail, free_alloc hfree]
  · -- allocating the slot and filling it are two changes of one entry
    rw [if_neg hfail, if_neg hfail, if_neg hfail]
    unfold uosFileAlloc World.grant
    show ((i : Int), World.mk ((w.slots.modify i _).modify i _) (sock :: w.opened)) = _
    rw [List.modify_modify_eq]
    rfl

/-! ## §3. The cases. -/

/-- **What one call can do.** -/
inductive StepCase (w : World) : Call × Int → World → Prop
  /-- The call fails and changes nothing. -/
  | failed (c : Call) : StepCase w (c, -1) w
  /-- `socket` or `accept` opens a socket. -/
  | opens (c : Call) (i : Nat) (sock : Int) (hfree : w.FreeSlot i) (hfresh : sock ∉ w.opened)
      (hsock : sock ≠ -1) : StepCase w (c, (i : Int)) (w.grant i sock)
  /-- `sockClose` closes the descriptor and frees the slot. -/
  | closes (i : Nat) (fd : Int) (hfd : w.socketFd i = some fd) (hopen : fd ∈ w.opened) :
      StepCase w (.close i true, 0) (uosFileFree i (w.closeFd fd))
  /-- `lwip_close` fails in `sockClose`; the slot is freed all the same. -/
  | abandons (i : Nat) (ok : Bool) (fd : Int) (hfd : w.socketFd i = some fd)
      (hfail : ¬ (fd ∈ w.opened ∧ ok = true)) :
      StepCase w (.close i ok, 0) (uosFileFree i w)
  /-- `closesocket` closes a descriptor and nothing else. -/
  | closesFd (s fd : Int) (hfd : netLwIP_FD w s = some fd) (hopen : fd ∈ w.opened) :
      StepCase w (.closesocket s true, 0) (w.closeFd fd)

/-- A call that opens a socket, whatever lwIP says. -/
theorem step_opens {w : World} {c : Call} {i : Nat} {sock : Int} (hfree : w.FreeSlot i)
    (hfresh : sock ≠ -1 → sock ∉ w.opened) :
    StepCase w (c, (finishOpen i sock (lwipOpen sock (uosFileAlloc i w))).1)
      (finishOpen i sock (lwipOpen sock (uosFileAlloc i w))).2 := by
  rw [finishOpen_eq hfree]
  split
  next => exact .failed c
  next hsock => exact .opens c i sock hfree (hfresh hsock) hsock

/-- **These are all the things a call can do.** -/
theorem step_cases {w w' : World} {l : Call × Int} (h : CallStep w l w') : StepCase w l w' := by
  obtain ⟨c, r⟩ := l
  obtain ⟨hallowed, hrun⟩ := h
  cases c with
  | socket slot sock =>
      obtain ⟨rfl, rfl⟩ := Prod.mk.inj (Option.some.inj hrun)
      cases slot with
      | none => exact .failed _
      | some i => exact step_opens (hallowed.1 i rfl) hallowed.2
  | accept s slot sock =>
      cases slot with
      | none =>
          obtain ⟨rfl, rfl⟩ := Prod.mk.inj (Option.some.inj hrun)
          exact .failed _
      | some i =>
          -- with a failed assertion there is no step
          simp only [Call.run, accept] at hrun
          split at hrun
          next => exact absurd hrun (by simp)
          next =>
            obtain ⟨rfl, rfl⟩ := Prod.mk.inj (Option.some.inj hrun)
            exact step_opens (hallowed.1 i rfl) hallowed.2
  | close i ok =>
      obtain ⟨fd, hfd⟩ := socketSlot_iff.mp hallowed
      obtain ⟨sl, hsl, -, -, hpriv⟩ := socketFd_eq_some.mp hfd
      -- `lwip_close` closes the descriptor or not; the slot is freed either way
      simp only [Call.run, sockClose, hsl] at hrun
      split at hrun
      next =>
        rw [hpriv] at hrun
        obtain ⟨rfl, rfl⟩ := Prod.mk.inj (Option.some.inj hrun)
        unfold lwip_close
        by_cases hclose : fd ∈ w.opened ∧ ok = true
        · rw [if_pos hclose]
          obtain ⟨hopen, rfl⟩ := hclose
          exact .closes i fd hfd hopen
        · rw [if_neg hclose]
          exact .abandons i ok fd hfd hclose
      next => exact absurd hrun (by simp)
  | closesocket s ok =>
      obtain ⟨fd, hfd, hclose⟩ := Option.map_eq_some_iff.mp hrun
      unfold lwip_close at hclose
      split at hclose
      next hopen =>
        obtain ⟨rfl, rfl⟩ := Prod.mk.inj hclose
        obtain ⟨hin, rfl⟩ := hopen
        exact .closesFd s fd hfd hin
      next =>
        obtain ⟨rfl, rfl⟩ := Prod.mk.inj hclose
        exact .failed _

end PicoosLwip.Sockets
